import Crashlog.Checked
import Crashlog.Container

/-!
# Parsing with checks

The parsers once more, as a debug build runs them: every integer operation is
checked to fit its type and every index and range to stay in its slice. The
parts of a parser that only use `get` are shared with the plain one. Each
checked parser agrees with the plain one, and does not panic on a slice that
is shorter than 2 GiB.
-/

namespace Crashlog.Checked

open Bytes

/-! ## Headers -/

/-- The index of a completion status word is a `u16`. -/
def HeaderType.completionStatusWord (slice : List Byte) (dword : Nat) : OptionT Checked UInt32 := do
  fits 16 (dword * 4)
  fits 16 (28 + dword * 4)
  fits 64 (28 + dword * 4 + 4)
  ofOption (readU32 slice (28 + dword * 4))

def HeaderType.type6FromSlice (slice : List Byte) : OptionT Checked HeaderType := do
  let timestamp ← ofOption (readU64 slice 8)
  let agentVersion ← ofOption (readU32 slice 16)
  let reason ← ofOption (readU32 slice 20)
  let dieSktInfo ← ofOption (Bytes.slice slice 24 28)
  let dieId ← (index dieSktInfo 0 : Checked Byte)
  let socketId ← (index dieSktInfo 1 : Checked Byte)
  let sizeWord ← range dieSktInfo 2 4
  let completionStatusSize := UInt16.ofNat (decodeLE sizeWord) &&& 0x7F
  let flags ← (index dieSktInfo 3 : Checked Byte)
  let completionStatus ← (List.range completionStatusSize.toNat).mapM
    (HeaderType.completionStatusWord slice)
  pure (.type6 timestamp agentVersion reason dieId socketId completionStatusSize
    completionStatus (flags &&& 0x80 != 0))

def HeaderType.type0LegacyServerFromSlice (slice : List Byte) : OptionT Checked HeaderType := do
  let reason ← ofOption (readU32 slice 4)
  let timestamp ← ofOption (readU64 slice 8)
  let agentVersion ← ofOption (readU32 slice 20)
  let socketId ← ofOption (readU8 slice 24)
  let csData ← ofOption (readU32 slice 28)
  let revision ← ofOption (readU8 slice 0)
  let dieIdx := revision &&& 0x3
  if (revision >>> 7) &&& 1 = 1 then
    fits 8 (dieIdx.toNat + 9)
    pure (.type0LegacyServer timestamp agentVersion reason (dieIdx + 9) socketId
      (csData &&& 0x7FFFFFFF) (csData >>> 31 != 0))
  else
    pure (.type0LegacyServer timestamp agentVersion reason (dieIdx <<< 2) socketId
      (csData &&& 0x7FFFFFFF) (csData >>> 31 != 0))

def HeaderType.fromSlice (headerTypeValue : UInt16) (slice : List Byte) : Checked (Except Error HeaderType) :=
  if headerTypeValue.toNat = 6 then (HeaderType.type6FromSlice slice).run.map (okOr · .invalidHeader)
  else .ok (Crashlog.HeaderType.fromSlice headerTypeValue slice)

def HeaderType.fromSliceType0LegacyServer (slice : List Byte) : Checked (Except Error HeaderType) :=
  (HeaderType.type0LegacyServerFromSlice slice).run.map (okOr · .invalidHeader)

def Header.fromSlice (slice : List Byte) : Checked (Except Error (Option Header)) :=
  match Version.fromSlice slice with
  | none => .ok (.ok none)
  | some version =>
      let errata := Errata.fromVersion version
      match (if errata.type0LegacyServer then
          okOr (RecordSize.fromSliceType0LegacyServer slice) Error.invalidHeader
        else okOr (RecordSize.fromSlice slice) .invalidHeader) with
      | .error error => .ok (.error error)
      | .ok size =>
          (if errata.type0LegacyServer then HeaderType.fromSliceType0LegacyServer slice
            else HeaderType.fromSlice version.headerType slice).map fun headerType =>
              headerType.map fun headerType => some { version, size, headerType }

def Header.recordSize (header : Header) : Checked Nat := do
  fits 64 (header.size.recordSize.toNat + header.size.extendedRecordSize.toNat)
  fits 64 header.recordSize
  .ok header.recordSize

def Header.headerSize (header : Header) : Checked Nat :=
  match header.headerType with
  | .type6 _ _ _ _ _ completionStatusSize _ _ => do
      fits 64 (completionStatusSize.toNat * 4)
      fits 64 (28 + completionStatusSize.toNat * 4)
      .ok header.headerSize
  | _ => .ok header.headerSize

section Headers

variable {safe : Prop} {slice : List Byte}

theorem die_skt_info_reads {info : List Byte} (read : Bytes.slice slice 24 28 = some info) :
    info[0]? = readU8 slice 24 ∧ info[1]? = readU8 slice 25 ∧ info[3]? = readU8 slice 27 ∧
      Bytes.slice info 2 4 = field slice 26 2 := by
  obtain ⟨_, inside, rfl⟩ := slice_eq_some_iff.mp read
  refine ⟨?_, ?_, ?_, ?_⟩
  · simp [readU8]
  · simp [readU8]
  · simp [readU8]
  · have range : 2 ≤ 4 ∧ 4 ≤ ((slice.drop 24).take (28 - 24)).length := by
      simp only [List.length_take, List.length_drop]
      omega
    have wide : 26 ≤ 26 + 2 ∧ 26 + 2 ≤ slice.length := by omega
    rw [field, Bytes.slice, Bytes.slice, if_pos range, if_pos wide]
    simp [List.drop_take]

theorem completion_status_word_agrees {dword : Nat} (small : dword < 128) :
    Agrees safe (HeaderType.completionStatusWord slice dword).run (readU32 slice (28 + dword * 4)) := by
  apply Agrees.lift_fits fun _ => by omega
  apply Agrees.lift_fits fun _ => by omega
  apply Agrees.lift_fits fun _ => by omega
  exact Agrees.ok safe _

theorem completion_status_size_lt (sizeWord : UInt16) : (sizeWord &&& 0x7F).toNat < 128 := by
  rw [UInt16.toNat_and]
  exact Nat.and_lt_two_pow _ (by decide : (0x7F : UInt16).toNat < 2 ^ 7)

theorem type6_agrees : Agrees safe (HeaderType.type6FromSlice slice).run
    (Crashlog.HeaderType.type6FromSlice slice) := by
  rw [Crashlog.HeaderType.type6FromSlice]
  apply Agrees.of_option
  intro timestamp _
  apply Agrees.of_option
  intro agentVersion _
  apply Agrees.of_option
  intro reason _
  cases cut : Bytes.slice slice 24 28 with
  | none =>
      -- Too short for the size word, whatever else can be read.
      have word : readU16 slice 26 = none := by
        have short : ¬ (26 ≤ 26 + 2 ∧ 26 + 2 ≤ slice.length) := by
          intro inside
          rw [Bytes.slice, if_pos (by omega)] at cut
          cases cut
        rw [readU16, field, Bytes.slice, if_neg short]
        rfl
      simp only [word]
      cases readU8 slice 24 <;> cases readU8 slice 25 <;> exact Agrees.ok safe none
  | some dieSktInfo =>
      obtain ⟨die, socket, flagged, sized⟩ := die_skt_info_reads cut
      have size : dieSktInfo.length = 4 := slice_length cut
      have byte (position : Nat) (inside : position < 4) : ∃ byte, dieSktInfo[position]? = some byte :=
        ⟨_, List.getElem?_eq_getElem (by omega)⟩
      obtain ⟨dieId, dieRead⟩ := byte 0 (by decide)
      obtain ⟨socketId, socketRead⟩ := byte 1 (by decide)
      obtain ⟨flags, flagsRead⟩ := byte 3 (by decide)
      have sizePresent : (Bytes.slice dieSktInfo 2 4).isSome := slice_is_some.mpr ⟨by decide, size.ge⟩
      obtain ⟨sizeWord, sizeRead⟩ := Option.isSome_iff_exists.mp sizePresent
      rw [readU16, ← die, ← socket, ← flagged, ← sized, dieRead, socketRead, flagsRead, sizeRead]
      apply Agrees.lift (.index dieRead)
      apply Agrees.lift (.index socketRead)
      apply Agrees.lift (.range sizeRead)
      apply Agrees.lift (.index flagsRead)
      apply Agrees.try_bind
      · apply Agrees.mapM_option
        intro dword member
        apply completion_status_word_agrees
        exact (List.mem_range.mp member).trans (completion_status_size_lt _)
      · intro completionStatus _
        exact Agrees.ok safe _

theorem die_idx_le (revision : UInt8) : (revision &&& 0x3).toNat ≤ 3 := by
  rw [UInt8.toNat_and]
  exact Nat.and_le_right

theorem legacy_agrees : Agrees safe (HeaderType.type0LegacyServerFromSlice slice).run
    (Crashlog.HeaderType.type0LegacyServerFromSlice slice) := by
  rw [Crashlog.HeaderType.type0LegacyServerFromSlice]
  apply Agrees.of_option
  intro reason _
  apply Agrees.of_option
  intro timestamp _
  apply Agrees.of_option
  intro agentVersion _
  apply Agrees.of_option
  intro socketId _
  apply Agrees.of_option
  intro csData _
  apply Agrees.of_option
  intro revision _
  by_cases upper : (revision >>> 7) &&& 1 = 1
  · simp only [upper, if_true]
    apply Agrees.lift_fits fun _ => by
      have small := die_idx_le revision
      omega
    exact Agrees.ok safe _
  · simp only [upper, if_false]
    exact Agrees.ok safe _

theorem header_type_agrees (headerTypeValue : UInt16) : Agrees safe (HeaderType.fromSlice headerTypeValue slice)
    (Crashlog.HeaderType.fromSlice headerTypeValue slice) := by
  rw [HeaderType.fromSlice]
  split_ifs with type6
  · rw [Crashlog.HeaderType.fromSlice, type6]
    exact type6_agrees.map _
  · exact Agrees.ok safe _

theorem header_agrees : Agrees safe (Header.fromSlice slice) (Crashlog.Header.fromSlice slice) := by
  rw [Header.fromSlice, Crashlog.Header.fromSlice]
  cases Version.fromSlice slice with
  | none => exact Agrees.ok safe _
  | some version =>
      have filled (headerType : Except Error Crashlog.HeaderType) (size : RecordSize) :
          (headerType.map fun headerType => some (Crashlog.Header.mk version size headerType)) =
            headerType.bind fun headerType => .ok (some (Crashlog.Header.mk version size headerType)) := by
        cases headerType <;> rfl
      simp only [filled]
      split_ifs with legacy
      · cases okOr (RecordSize.fromSliceType0LegacyServer slice) Error.invalidHeader with
        | error error => exact Agrees.ok safe _
        | ok size => exact (legacy_agrees.map _).map _
      · cases okOr (RecordSize.fromSlice slice) Error.invalidHeader with
        | error error => exact Agrees.ok safe _
        | ok size => exact (header_type_agrees _).map _

theorem record_size_lt (header : Header) : header.recordSize < 2 ^ 20 := by
  have size := header.size.recordSize.toNat_lt
  have extended := header.size.extendedRecordSize.toNat_lt
  have granularity : header.recordSizeGranularity ≤ 4 := by
    unfold Crashlog.Header.recordSizeGranularity
    split_ifs <;> decide
  calc header.recordSize
      ≤ (2 ^ 17) * 4 := Nat.mul_le_mul (by omega) granularity
    _ < 2 ^ 20 := by norm_num

theorem record_size_agrees (header : Header) : Agrees safe (Header.recordSize header) header.recordSize := by
  have size := header.size.recordSize.toNat_lt
  have extended := header.size.extendedRecordSize.toNat_lt
  have total := record_size_lt header
  apply Agrees.fits fun _ => by omega
  apply Agrees.fits fun _ => by omega
  exact Agrees.ok safe _

theorem header_size_agrees (header : Header) : Agrees safe (Header.headerSize header) header.headerSize := by
  unfold Header.headerSize
  split
  · rename_i completionStatusSize _ _ _
    have size := completionStatusSize.toNat_lt
    apply Agrees.fits fun _ => by omega
    apply Agrees.fits fun _ => by omega
    exact Agrees.ok safe _
  · exact Agrees.ok safe _

end Headers

/-! ## Regions -/

/-- The loop of `Region.fromSlice`. -/
def Region.fromSliceLoop (bytes : List Byte) (cursor : Nat) (records : List Record) :
    Checked (Except Error (List Record)) :=
  if inside : cursor < bytes.length then do
    let rest ← rangeFrom bytes cursor
    match ← Header.fromSlice rest with
    | .ok none => .ok (.ok records)
    | .error error => .ok (if records.isEmpty then .error error else .ok records)
    | .ok (some header) =>
        let recordSize ← Header.recordSize header
        if empty : recordSize = 0 then .ok (.ok records)
        else
          fits 64 (cursor + recordSize)
          -- A truncated record is logged with the number of bytes that are left.
          require (bytes.length < cursor + recordSize → cursor ≤ bytes.length) .overflow
          let data ← range bytes cursor (min (cursor + recordSize) bytes.length)
          Region.fromSliceLoop bytes (cursor + recordSize) (records ++ [{ header, data := data }])
  else .ok (.ok records)
termination_by bytes.length - cursor

def Region.fromSlice (bytes : List Byte) : Checked (Except Error Region) := do
  match ← Region.fromSliceLoop bytes 0 [] with
  | .error error => .ok (.error error)
  | .ok records => .ok (if records.isEmpty then .error .emptyRegion else .ok { records })

def Region.fromCperSection : CperSectionBody → Checked (Option Region)
  | .firmwareErrorRecord fer =>
      if fer.header.guid = Fer.RECORD_ID_CRASHLOG then (Region.fromSlice fer.payload).map Except.toOption
      else .ok none
  | .unknown _ _ => .ok none

/-- A slice of less than 2 GiB. -/
def Short (bytes : List Byte) : Prop := bytes.length < 2 ^ 31

section Regions

variable {bytes : List Byte}

theorem region_loop_agrees (cursor : Nat) (records : List Record) :
    Agrees (Short bytes) (Region.fromSliceLoop bytes cursor records)
      (Crashlog.Region.fromSliceLoop bytes cursor records) := by
  induction left : bytes.length - cursor using Nat.strong_induction_on generalizing cursor records with
  | _ left ih =>
      rw [Region.fromSliceLoop, Crashlog.Region.fromSliceLoop]
      by_cases inside : cursor < bytes.length
      · rw [dif_pos inside, if_pos inside]
        apply Agrees.bind (.range_from (slice_from_eq_some_iff.mpr ⟨inside.le, rfl⟩))
        apply Agrees.bind header_agrees
        cases Crashlog.Header.fromSlice (bytes.drop cursor) with
        | error error => exact Agrees.ok _ _
        | ok found =>
            cases found with
            | none => exact Agrees.ok _ _
            | some header =>
                apply Agrees.bind (record_size_agrees header)
                by_cases empty : header.recordSize = 0
                · rw [dif_pos empty]
                  simp only [empty, if_true]
                  exact Agrees.ok _ _
                · rw [dif_neg empty]
                  simp only [empty, if_false]
                  have size := record_size_lt header
                  apply Agrees.fits fun short => by
                    unfold Short at short
                    omega
                  apply Agrees.require fun _ _ => inside.le
                  apply Agrees.bind (.range (slice_eq_some_iff.mpr ⟨by omega, by omega, rfl⟩))
                  exact ih _ (by omega) _ _ rfl
      · rw [dif_neg inside, if_neg inside]
        exact Agrees.ok _ _

theorem region_agrees : Agrees (Short bytes) (Region.fromSlice bytes) (Crashlog.Region.fromSlice bytes) := by
  rw [Region.fromSlice, Crashlog.Region.fromSlice]
  apply Agrees.bind (region_loop_agrees 0 [])
  cases Crashlog.Region.fromSliceLoop bytes 0 [] with
  | error error => exact Agrees.ok _ _
  | ok records => exact Agrees.ok _ _

theorem region_from_section_agrees (body : CperSectionBody) :
    Agrees (∀ fer, body = .firmwareErrorRecord fer → Short fer.payload) (Region.fromCperSection body)
      (Crashlog.Region.fromCperSection body) := by
  cases body with
  | unknown guid data => exact Agrees.ok _ _
  | firmwareErrorRecord fer =>
      rw [Region.fromCperSection, Crashlog.Region.fromCperSection]
      split_ifs
      · apply Agrees.map
        exact region_agrees.mono fun short => short fer rfl
      · exact Agrees.ok _ _

end Regions

/-! ## Boot Error Regions -/

def GenericErrorDataEntry.fromSlice (s : List Byte) : OptionT Checked GenericErrorDataEntry := do
  let header ← ofOption (GenericErrorDataEntryHeader.fromSlice s)
  fits 64 (header.size + header.errorDataLength.toNat)
  let body ← ofOption (Bytes.slice s header.size (header.size + header.errorDataLength.toNat))
  let cperSection ← ofOption (CperSectionBody.fromSlice header.sectionType body)
  pure { header, cperSection := cperSection }

/-- The loop of `Berr.fromSlice`. -/
def Berr.fromSliceLoop (s : List Byte) (ptr endOffset : Nat) (entries : List GenericErrorDataEntry) :
    Checked (Option (List GenericErrorDataEntry)) :=
  match Bytes.slice s ptr endOffset with
  | none => .ok none
  | some rest => do
      match ← (GenericErrorDataEntry.fromSlice rest).run with
      | none => .ok (some entries)
      | some entry =>
          fits 64 entry.size
          fits 64 (ptr + entry.size)
          if ptr + entry.size ≥ endOffset then .ok (some (entries ++ [entry]))
          else Berr.fromSliceLoop s (ptr + entry.size) endOffset (entries ++ [entry])
termination_by endOffset - ptr
decreasing_by
  have positive := entry.size_pos
  omega

def Berr.fromSlice (s : List Byte) : OptionT Checked Berr := do
  let header ← ofOption (GenericErrorStatusBlock.fromSlice s)
  let ptr := GenericErrorStatusBlock.size
  fits 64 (ptr + header.dataLength.toNat)
  let entries ← OptionT.mk (Berr.fromSliceLoop s ptr (ptr + header.dataLength.toNat) [])
  pure { header, entries := entries }

def Berr.fromBertFile (s : List Byte) : OptionT Checked Berr :=
  if [0x42, 0x45, 0x52, 0x52] <+: s then ofOption (sliceFrom s 4) >>= Berr.fromSlice
  else if [0x42, 0x45, 0x52, 0x54] <+: s then ofOption (sliceFrom s Crashlog.Berr.BERT_SIZE) >>= Berr.fromSlice
  else OptionT.mk (.ok none)

section BootErrorRegions

variable {s : List Byte}

theorem data_entry_agrees {safe : Prop} : Agrees safe (GenericErrorDataEntry.fromSlice s).run
    (Crashlog.GenericErrorDataEntry.fromSlice s) := by
  rw [Crashlog.GenericErrorDataEntry.fromSlice]
  apply Agrees.of_option
  intro header _
  have size : header.size ≤ 72 := by
    unfold GenericErrorDataEntryHeader.size
    split_ifs <;> decide
  have length := header.errorDataLength.toNat_lt
  apply Agrees.lift_fits fun _ => by omega
  apply Agrees.of_option
  intro body _
  apply Agrees.of_option
  intro cperSection _
  exact Agrees.ok safe _

theorem berr_loop_agrees (ptr endOffset : Nat) (entries : List GenericErrorDataEntry) :
    Agrees (Short s) (Berr.fromSliceLoop s ptr endOffset entries)
      (Crashlog.Berr.fromSliceLoop s ptr endOffset entries) := by
  induction left : endOffset - ptr using Nat.strong_induction_on generalizing ptr entries with
  | _ left ih =>
      rw [Berr.fromSliceLoop, Crashlog.Berr.fromSliceLoop]
      cases cut : Bytes.slice s ptr endOffset with
      | none => exact Agrees.ok _ _
      | some rest =>
          obtain ⟨ordered, inside, _⟩ := slice_eq_some_iff.mp cut
          dsimp only
          apply Agrees.bind data_entry_agrees
          cases Crashlog.GenericErrorDataEntry.fromSlice rest with
          | none => exact Agrees.ok _ _
          | some entry =>
              have size : entry.size < 2 ^ 33 := by
                have length := entry.header.errorDataLength.toNat_lt
                unfold Crashlog.GenericErrorDataEntry.size GenericErrorDataEntryHeader.size
                split_ifs <;> omega
              apply Agrees.fits fun _ => by omega
              apply Agrees.fits fun short => by
                unfold Short at short
                omega
              simp only
              split_ifs with done
              · exact Agrees.ok _ _
              · have positive := entry.size_pos
                exact ih (endOffset - (ptr + entry.size)) (by omega) _ _ rfl

theorem berr_agrees : Agrees (Short s) (Berr.fromSlice s).run (Crashlog.Berr.fromSlice s) := by
  rw [Crashlog.Berr.fromSlice]
  apply Agrees.of_option
  intro header _
  have length := header.dataLength.toNat_lt
  apply Agrees.lift_fits fun _ => by
    unfold GenericErrorStatusBlock.size
    omega
  apply Agrees.try_bind (berr_loop_agrees _ _ _)
  intro entries _
  exact Agrees.ok _ _

theorem bert_file_agrees : Agrees (Short s) (Berr.fromBertFile s).run (Crashlog.Berr.fromBertFile s) := by
  have short_rest {start : Nat} {rest : List Byte} (cut : sliceFrom s start = some rest) (short : Short s) :
      Short rest := by
    obtain ⟨_, rfl⟩ := slice_from_eq_some_iff.mp cut
    unfold Short at short ⊢
    rw [List.length_drop]
    omega
  unfold Berr.fromBertFile Crashlog.Berr.fromBertFile
  split_ifs
  · exact Agrees.of_option fun rest cut => berr_agrees.mono (short_rest cut)
  · exact Agrees.of_option fun rest cut => berr_agrees.mono (short_rest cut)
  · exact Agrees.ok _ _

end BootErrorRegions

/-! ## CPER containers -/

/-- The loop of `normalize` over the sections. -/
def Cper.placeSections (cursor : Nat) : List CperSection → Checked (List CperSection × Nat)
  | [] => .ok ([], cursor)
  | head :: rest => do
      fits 64 (cursor + head.width)
      let (placed, stop) ← Cper.placeSections (cursor + head.width) rest
      .ok (head.place cursor :: placed, stop)

def Cper.normalize (cper : Cper) : Checked Cper := do
  fits 64 (SECTION_DESCRIPTOR_SIZE * cper.sections.length)
  fits 64 (RECORD_HEADER_SIZE + SECTION_DESCRIPTOR_SIZE * cper.sections.length)
  let (sections, cursor) ← Cper.placeSections (Cper.bodyStart cper.sections.length) cper.sections
  .ok { recordHeader := { cper.recordHeader with
          sectionCount := UInt16.ofNat cper.sections.length
          recordLength := UInt32.ofNat cursor }.normalize
        sections }

def Cper.readSection (bytes : List Byte) (i : Nat) : OptionT Checked CperSection := do
  fits 64 (i * SECTION_DESCRIPTOR_SIZE)
  fits 64 (RECORD_HEADER_SIZE + i * SECTION_DESCRIPTOR_SIZE)
  let rest ← ofOption (sliceFrom bytes (RECORD_HEADER_SIZE + i * SECTION_DESCRIPTOR_SIZE))
  let descriptor ← ofOption (CperSectionDescriptor.fromSlice rest)
  let offset := descriptor.sectionOffset.toNat
  fits 64 (offset + descriptor.sectionLength.toNat)
  let cut ← ofOption (Bytes.slice bytes offset (offset + descriptor.sectionLength.toNat))
  let body ← ofOption (CperSectionBody.fromSlice descriptor.sectionType cut)
  pure { descriptor, body := body }

def Cper.readSections (bytes : List Byte) (count : Nat) : Checked (List CperSection) := do
  let found ← (List.range count).mapM fun i => (Cper.readSection bytes i).run
  .ok (found.filterMap id)

def Cper.fromSlice (bytes : List Byte) : OptionT Checked Cper := do
  let head ← ofOption (Bytes.slice bytes 0 RECORD_HEADER_SIZE)
  let recordHeader ← ofOption (CperHeader.fromSlice head)
  let sections ← Cper.readSections bytes recordHeader.sectionCount.toNat
  OptionT.lift (Cper.normalize { recordHeader, sections := sections })

section Containers

variable {safe : Prop} {bytes : List Byte}

theorem place_sections_agrees {cursor : Nat} {sections : List CperSection}
    (room : cursor + Cper.bodiesWidth sections < 2 ^ 64) :
    Agrees safe (Cper.placeSections cursor sections) (Crashlog.Cper.placeSections cursor sections) := by
  induction sections generalizing cursor with
  | nil => exact Agrees.ok _ _
  | cons head rest ih =>
      simp only [Cper.bodiesWidth, List.map_cons, List.sum_cons] at room
      rw [Cper.placeSections, Crashlog.Cper.placeSections]
      apply Agrees.fits fun _ => by omega
      apply Agrees.bind
      · apply ih
        unfold Cper.bodiesWidth
        omega
      · exact Agrees.ok _ _

theorem bodies_width_le (sections : List CperSection) :
    Cper.bodiesWidth sections ≤ sections.length * 2 ^ 32 := by
  have each : ∀ width ∈ sections.map CperSection.width, width ≤ 2 ^ 32 := by
    intro width member
    obtain ⟨item, _, rfl⟩ := List.mem_map.mp member
    exact item.descriptor.sectionLength.toNat_lt.le
  have total := List.sum_le_card_nsmul _ _ each
  rwa [List.length_map] at total

theorem normalize_agrees {cper : Cper} (few : cper.sections.length < 2 ^ 16) :
    Agrees safe (Cper.normalize cper) cper.normalize := by
  have width := bodies_width_le cper.sections
  have start : Cper.bodyStart cper.sections.length = 128 + 72 * cper.sections.length := rfl
  rw [Cper.normalize, Crashlog.Cper.normalize]
  apply Agrees.fits fun _ => by
    unfold SECTION_DESCRIPTOR_SIZE
    omega
  apply Agrees.fits fun _ => by
    unfold SECTION_DESCRIPTOR_SIZE RECORD_HEADER_SIZE
    omega
  apply Agrees.bind (place_sections_agrees (by omega))
  exact Agrees.ok _ _

theorem read_section_agrees {i : Nat} (few : i < 2 ^ 16) :
    Agrees safe (Cper.readSection bytes i).run (Crashlog.Cper.readSection bytes i) := by
  simp only [Crashlog.Cper.readSection, Option.bind_eq_bind, Option.bind_assoc]
  apply Agrees.lift_fits fun _ => by
    unfold SECTION_DESCRIPTOR_SIZE
    omega
  apply Agrees.lift_fits fun _ => by
    unfold SECTION_DESCRIPTOR_SIZE RECORD_HEADER_SIZE
    omega
  apply Agrees.of_option
  intro rest _
  apply Agrees.of_option
  intro descriptor _
  have offset := descriptor.sectionOffset.toNat_lt
  have length := descriptor.sectionLength.toNat_lt
  apply Agrees.lift_fits fun _ => by omega
  apply Agrees.of_option
  intro cut _
  apply Agrees.of_option
  intro body _
  exact Agrees.ok _ _

theorem read_sections_agrees {count : Nat} (few : count < 2 ^ 16) :
    Agrees safe (Cper.readSections bytes count)
      ((List.range count).filterMap (Crashlog.Cper.readSection bytes)) := by
  have sections : (List.range count).filterMap (Crashlog.Cper.readSection bytes) =
      ((List.range count).map (Crashlog.Cper.readSection bytes)).filterMap id := by
    rw [List.filterMap_map]
    rfl
  rw [sections, Cper.readSections]
  apply Agrees.bind
  · apply Agrees.mapM
    intro i member
    exact read_section_agrees ((List.mem_range.mp member).trans few)
  · exact Agrees.ok _ _

theorem cper_agrees : Agrees safe (Cper.fromSlice bytes).run (Crashlog.Cper.fromSlice bytes) := by
  simp only [Crashlog.Cper.fromSlice, Option.bind_eq_bind, Option.bind_assoc]
  apply Agrees.of_option
  intro head _
  apply Agrees.of_option
  intro recordHeader _
  have count := recordHeader.sectionCount.toNat_lt
  apply Agrees.lift (read_sections_agrees count)
  apply Agrees.map
  apply normalize_agrees
  calc _ ≤ (List.range recordHeader.sectionCount.toNat).length := List.length_filterMap_le ..
    _ < 2 ^ 16 := by rwa [List.length_range]

end Containers

/-! ## Crash Logs -/

/-- The body of the inner loop of `fromRegions`. -/
def CrashLog.pushBox (queue : List Region) (record : Record) : Checked (List Region) :=
  if record.isBox then do
    let start ← Header.headerSize record.header
    match sliceFrom record.data start with
    | none => .ok queue
    | some payload =>
        match ← Region.fromSlice payload with
        | .ok region => .ok (region.setChildContext record.header :: queue)
        | .error _ => .ok queue
  else .ok queue

def CrashLog.pushBoxes (records : List Record) (queue : List Region) : Checked (List Region) :=
  records.foldlM CrashLog.pushBox queue

theorem push_box_agrees (queue : List Region) (record : Record) :
    Agrees (Short record.data) (CrashLog.pushBox queue record) (Crashlog.CrashLog.pushBox queue record) := by
  unfold CrashLog.pushBox Crashlog.CrashLog.pushBox
  split_ifs with isBox
  · apply Agrees.bind (header_size_agrees record.header)
    rw [Record.boxPayload]
    cases cut : sliceFrom record.data record.header.headerSize with
    | none => exact Agrees.ok _ _
    | some payload =>
        obtain ⟨_, rfl⟩ := slice_from_eq_some_iff.mp cut
        dsimp only
        apply Agrees.bind
        · apply region_agrees.mono
          intro short
          unfold Short at short ⊢
          rw [List.length_drop]
          omega
        · cases Crashlog.Region.fromSlice (record.data.drop record.header.headerSize) with
          | error error => exact Agrees.ok _ _
          | ok region => exact Agrees.ok _ _
  · exact Agrees.ok _ _

/-- The records of a region are not longer than the region. -/
theorem short_record {region : Region} (short : Short region.toBytes) {record : Record}
    (member : record ∈ region.records) : Short record.data := by
  have inside : record.data.length ≤ region.toBytes.length := by
    rw [Crashlog.Region.toBytes, List.length_flatten, List.map_map]
    exact List.le_sum_of_mem (List.mem_map_of_mem (f := List.length ∘ Record.data) member)
  exact inside.trans_lt short

theorem push_boxes_agrees (region : Region) (queue : List Region) :
    Agrees (Short region.toBytes) (CrashLog.pushBoxes region.records queue)
      (Crashlog.CrashLog.pushBoxes region.records queue) := by
  apply Agrees.foldl
  intro record member queue
  exact (push_box_agrees queue record).mono fun short => short_record short member

/-- The outer loop of `fromRegions`. -/
def CrashLog.fromRegionsLoop (queue regions : List Region) : Checked (List Region) :=
  match queue with
  | [] => .ok regions
  | region :: rest =>
      match _pushed : CrashLog.pushBoxes region.records rest with
      | .error panic => .error panic
      | .ok queue => CrashLog.fromRegionsLoop queue (regions ++ [region])
termination_by boxExpansion.load queue
decreasing_by
  rw [(push_boxes_agrees region rest).same _ _pushed, CrashLog.push_boxes_eq]
  exact boxExpansion.load_step region rest

def CrashLog.fromRegions (regions : List Region) : Checked (Except Error CrashLog) := do
  let regions ← CrashLog.fromRegionsLoop regions []
  .ok (if regions.isEmpty then .error .invalidCrashLog else .ok { regions := regions })

def CrashLog.fromBerr (berr : Berr) : Checked (Except Error CrashLog) := do
  let regions ← berr.entries.mapM fun entry => Region.fromCperSection entry.cperSection
  CrashLog.fromRegions (regions.filterMap id)

/-- The loop body of `fromCper`. -/
def CrashLog.sortSection (sorted : List Region × List CperSectionBody) (item : CperSection) :
    Checked (List Region × List CperSectionBody) := do
  match ← Region.fromCperSection item.body with
  | some region => .ok (sorted.1 ++ [region], sorted.2)
  | none => .ok (sorted.1, sorted.2 ++ [item.body])

def CrashLog.fromCper (cper : Cper) : Checked (Except Error CrashLog) := do
  let (regions, extraCperSections) ← cper.sections.foldlM CrashLog.sortSection ([], [])
  if regions.isEmpty then .ok (.error .noCrashLogFound)
  else do
    let crashlog ← CrashLog.fromRegions regions
    .ok (crashlog.map fun crashlog =>
      { crashlog with metadata := { crashlog.metadata with extraCperSections := extraCperSections } })

def CrashLog.fromSlice (s : List Byte) : Checked (Except Error CrashLog) := do
  match ← (Berr.fromBertFile s).run with
  | some berr => CrashLog.fromBerr berr
  | none =>
      match ← (Cper.fromSlice s).run with
      | some cper => CrashLog.fromCper cper
      | none =>
          match ← Region.fromSlice s with
          | .error error => .ok (.error error)
          | .ok region => CrashLog.fromRegions [region]

section CrashLogs

/-- Boxed regions are not longer than the regions around them. -/
theorem short_boxed {region child : Region} (short : Short region.toBytes)
    (boxed : child ∈ (region.records.filterMap boxedRegion)) : Short child.toBytes := by
  obtain ⟨record, member, box⟩ := List.mem_filterMap.mp boxed
  have size := boxed_region_size box
  have own := short_record short member
  unfold Short at own ⊢
  omega

theorem regions_loop_agrees (queue regions : List Region) :
    Agrees (∀ region ∈ queue, Short region.toBytes) (CrashLog.fromRegionsLoop queue regions)
      (Crashlog.CrashLog.fromRegionsLoop queue regions) := by
  induction queue, regions using Crashlog.CrashLog.fromRegionsLoop.induct with
  | case1 regions =>
      rw [CrashLog.fromRegionsLoop, Crashlog.CrashLog.fromRegionsLoop]
      exact Agrees.ok _ _
  | case2 regions region rest ih =>
      have boxes := push_boxes_agrees region rest
      rw [CrashLog.fromRegionsLoop, Crashlog.CrashLog.fromRegionsLoop]
      split
      · rename_i panic run
        apply Agrees.error
        intro short
        rw [boxes.returns (short region List.mem_cons_self)] at run
        cases run
      · rename_i queue run
        rw [boxes.same queue run]
        apply ih.mono
        intro short child member
        rw [CrashLog.push_boxes_eq, List.mem_append, List.mem_reverse] at member
        rcases member with boxed | waiting
        · exact short_boxed (short region List.mem_cons_self) boxed
        · exact short child (List.mem_cons_of_mem _ waiting)

theorem from_regions_agrees (regions : List Region) :
    Agrees (∀ region ∈ regions, Short region.toBytes) (CrashLog.fromRegions regions)
      (Crashlog.CrashLog.fromRegions regions) := by
  rw [CrashLog.fromRegions, Crashlog.CrashLog.fromRegions]
  apply Agrees.bind (regions_loop_agrees regions [])
  exact Agrees.ok _ _

/-- The payloads that may hold regions. -/
def ShortPayloads (bodies : List CperSectionBody) : Prop :=
  ∀ fer, .firmwareErrorRecord fer ∈ bodies → Short fer.payload

theorem short_parsed {body : CperSectionBody} {region : Region}
    (short : ∀ fer, body = .firmwareErrorRecord fer → Short fer.payload)
    (parsed : Crashlog.Region.fromCperSection body = some region) : Short region.toBytes := by
  cases body with
  | unknown guid data => cases parsed
  | firmwareErrorRecord fer =>
      rw [Crashlog.Region.fromCperSection] at parsed
      split_ifs at parsed
      have total := (Region.from_slice_eq_ok_iff.mp (except_to_option_eq_some.mp parsed)).1.total_le
      exact total.trans_lt (short fer rfl)

theorem from_berr_agrees (berr : Berr) :
    Agrees (ShortPayloads (berr.entries.map GenericErrorDataEntry.cperSection)) (CrashLog.fromBerr berr)
      (Crashlog.CrashLog.fromBerr berr) := by
  have regions : berr.entries.filterMap (fun entry => Crashlog.Region.fromCperSection entry.cperSection) =
      (berr.entries.map fun entry => Crashlog.Region.fromCperSection entry.cperSection).filterMap id := by
    rw [List.filterMap_map]
    rfl
  rw [CrashLog.fromBerr, Crashlog.CrashLog.fromBerr, regions]
  apply Agrees.bind
  · apply Agrees.mapM
    intro entry member
    apply (region_from_section_agrees entry.cperSection).mono
    intro short fer same
    exact short fer (same ▸ List.mem_map_of_mem member)
  · apply (from_regions_agrees _).mono
    intro short region member
    obtain ⟨found, foundMember, same⟩ := List.mem_filterMap.mp member
    obtain ⟨entry, entryMember, rfl⟩ := List.mem_map.mp foundMember
    exact short_parsed (fun fer own => short fer (own ▸ List.mem_map_of_mem entryMember)) same

theorem sort_section_agrees (sorted : List Region × List CperSectionBody) (item : CperSection) :
    Agrees (∀ fer, item.body = .firmwareErrorRecord fer → Short fer.payload)
      (CrashLog.sortSection sorted item) (Crashlog.CrashLog.sortSection sorted item) := by
  rw [CrashLog.sortSection, Crashlog.CrashLog.sortSection]
  apply Agrees.bind (region_from_section_agrees item.body)
  cases Crashlog.Region.fromCperSection item.body with
  | none => exact Agrees.ok _ _
  | some region => exact Agrees.ok _ _

theorem from_cper_agrees (cper : Cper) :
    Agrees (ShortPayloads cper.bodies) (CrashLog.fromCper cper) (Crashlog.CrashLog.fromCper cper) := by
  rw [CrashLog.fromCper, Crashlog.CrashLog.fromCper]
  apply Agrees.bind
  · apply Agrees.foldl
    intro item member sorted
    apply (sort_section_agrees sorted item).mono
    intro short fer same
    exact short fer (same ▸ List.mem_map_of_mem member)
  · rw [CrashLog.sort_sections_eq, List.nil_append, List.nil_append]
    dsimp only
    split_ifs
    · exact Agrees.ok _ _
    · apply Agrees.bind
      · apply (from_regions_agrees _).mono
        intro short region member
        obtain ⟨body, bodyMember, parsed⟩ := List.mem_filterMap.mp member
        exact short_parsed (fun fer own => short fer (own ▸ bodyMember)) parsed
      · cases Crashlog.CrashLog.fromRegions _ with
        | error error => exact Agrees.ok _ _
        | ok crashlog => exact Agrees.ok _ _

/-- Sections are cut out of the slice, so none is longer. -/
theorem short_payloads {s : List Byte} {bodies : List CperSectionBody} (short : Short s)
    (inside : ∀ body ∈ bodies, ∃ guid bytes, bytes <:+: s ∧ CperSectionBody.fromSlice guid bytes = some body) :
    ShortPayloads bodies := by
  intro fer member
  obtain ⟨guid, bytes, within, parsed⟩ := inside _ member
  have size := CperSectionBody.len_eq_of_from_slice parsed
  have length := within.length_le
  rw [CperSectionBody.len] at size
  unfold Short at short ⊢
  omega

theorem from_slice_agrees (s : List Byte) :
    Agrees (Short s) (CrashLog.fromSlice s) (Crashlog.CrashLog.fromSlice s) := by
  rw [CrashLog.fromSlice, Crashlog.CrashLog.fromSlice]
  apply Agrees.bind bert_file_agrees
  cases file : Crashlog.Berr.fromBertFile s with
  | some berr =>
      apply (from_berr_agrees berr).mono
      intro short
      apply short_payloads short
      intro body member
      obtain ⟨entry, entryMember, rfl⟩ := List.mem_map.mp member
      obtain ⟨rest, behind, read⟩ := Berr.from_bert_file_suffix file
      obtain ⟨guid, bytes, inside, parsed⟩ := Berr.entry_inside read entryMember
      exact ⟨guid, bytes, inside.trans behind.isInfix, parsed⟩
  | none =>
      apply Agrees.bind cper_agrees
      cases read : Crashlog.Cper.fromSlice s with
      | some cper =>
          apply (from_cper_agrees cper).mono
          intro short
          apply short_payloads short
          intro body member
          obtain ⟨guid, bytes, inside, _, parsed⟩ := Cper.bodies_provenance read member
          exact ⟨guid, bytes, inside, parsed⟩
      | none =>
          apply Agrees.bind region_agrees
          cases single : Crashlog.Region.fromSlice s with
          | error error => exact Agrees.ok _ _
          | ok region =>
              apply (from_regions_agrees [region]).mono
              intro short child member
              rw [List.mem_singleton.mp member]
              exact (Region.from_slice_eq_ok_iff.mp single).1.total_le.trans_lt short

end CrashLogs

end Crashlog.Checked
