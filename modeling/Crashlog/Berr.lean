import Crashlog.Section

/-!
# Boot Error Regions

The body of an ACPI Boot Error Record Table: a status block and a sequence of
error data entries, each with a section body. The parser ends at the first
entry that cannot be read; the encoder announces the lengths it has written,
whatever the headers say. `Encodable` is what makes an entry readable again.
-/

namespace Crashlog

open Bytes

structure GenericErrorStatusBlock where
  blockStatus : UInt32 := 0
  rawDataOffset : UInt32 := 0
  rawDataLength : UInt32 := 0
  dataLength : UInt32 := 0
  errorSeverity : UInt32 := 0
  deriving DecidableEq, Repr

namespace GenericErrorStatusBlock

def fromSlice (s : List Byte) : Option GenericErrorStatusBlock := do
  let blockStatus ← readU32 s 0
  let rawDataOffset ← readU32 s 4
  let rawDataLength ← readU32 s 8
  let dataLength ← readU32 s 12
  let errorSeverity ← readU32 s 16
  some { blockStatus, rawDataOffset, rawDataLength, dataLength, errorSeverity }

def toBytes (block : GenericErrorStatusBlock) : List Byte :=
  bytesOfU32 block.blockStatus ++ (bytesOfU32 block.rawDataOffset ++
    (bytesOfU32 block.rawDataLength ++ (bytesOfU32 block.dataLength ++
    bytesOfU32 block.errorSeverity)))

/-- The size of the packed structure. -/
def size : Nat := 20

end GenericErrorStatusBlock

structure GenericErrorDataEntryHeader where
  sectionType : Guid := Guid.ZERO
  errorSeverity : UInt32 := 0
  revision : UInt16 := 0
  validationBits : UInt8 := 0
  flags : UInt8 := 0
  errorDataLength : UInt32 := 0
  fruId : Block 16 := Block.zero 16
  fruText : Block 20 := Block.zero 20
  timestamp : UInt64 := 0
  deriving DecidableEq, Repr

namespace GenericErrorDataEntryHeader

def fromSlice (s : List Byte) : Option GenericErrorDataEntryHeader := do
  let revision ← readU16 s 20
  let sectionType ← readBlock 16 s 0
  let errorSeverity ← readU32 s 16
  let validationBits ← readU8 s 22
  let flags ← readU8 s 23
  let errorDataLength ← readU32 s 24
  let fruId ← readBlock 16 s 28
  let fruText ← readBlock 20 s 44
  let timestamp ← (if revision ≥ 0x300 then readU64 s 64 else some 0)
  some {
    sectionType, errorSeverity, revision, validationBits, flags, errorDataLength, fruId, fruText
    timestamp }

/-- The timestamp is written for the revisions that have one. -/
def toBytes (header : GenericErrorDataEntryHeader) : List Byte :=
  header.sectionType.bytes ++ (bytesOfU32 header.errorSeverity ++ (bytesOfU16 header.revision ++
    ([header.validationBits] ++ ([header.flags] ++ (bytesOfU32 header.errorDataLength ++
    (header.fruId.bytes ++ (header.fruText.bytes ++
    (if header.revision ≥ 0x300 then bytesOfU64 header.timestamp else []))))))))

/-- The packed structure has 72 bytes, of which the last eight are the timestamp. -/
def size (header : GenericErrorDataEntryHeader) : Nat :=
  if header.revision ≥ 0x300 then 72 else 72 - 8

theorem size_pos (header : GenericErrorDataEntryHeader) : 0 < header.size := by
  unfold size
  split_ifs <;> decide

end GenericErrorDataEntryHeader

structure GenericErrorDataEntry where
  header : GenericErrorDataEntryHeader
  cperSection : CperSectionBody
  deriving DecidableEq, Repr

namespace GenericErrorDataEntry

def fromSlice (s : List Byte) : Option GenericErrorDataEntry := do
  let header ← GenericErrorDataEntryHeader.fromSlice s
  let body ← slice s header.size (header.size + header.errorDataLength.toNat)
  let cperSection ← CperSectionBody.fromSlice header.sectionType body
  some { header, cperSection }

/-- The header announces the bytes of the body that follows it. -/
def toBytes (entry : GenericErrorDataEntry) : List Byte :=
  let cperSection := entry.cperSection.toBytes
  { entry.header with errorDataLength := UInt32.ofNat cperSection.length }.toBytes ++ cperSection

def size (entry : GenericErrorDataEntry) : Nat :=
  entry.header.size + entry.header.errorDataLength.toNat

theorem size_pos (entry : GenericErrorDataEntry) : 0 < entry.size := by
  have positive := entry.header.size_pos
  unfold size
  omega

end GenericErrorDataEntry

structure Berr where
  header : GenericErrorStatusBlock := {}
  entries : List GenericErrorDataEntry := []
  deriving DecidableEq, Repr

namespace Berr

/-- The loop of `fromSlice`: the state is the pointer and the entries read so far. -/
def fromSliceLoop (s : List Byte) (ptr endOffset : Nat) (entries : List GenericErrorDataEntry) :
    Option (List GenericErrorDataEntry) :=
  match slice s ptr endOffset with
  | none => none
  | some rest =>
      match GenericErrorDataEntry.fromSlice rest with
      | none => some entries
      | some entry =>
          if ptr + entry.size ≥ endOffset then some (entries ++ [entry])
          else fromSliceLoop s (ptr + entry.size) endOffset (entries ++ [entry])
termination_by endOffset - ptr
decreasing_by
  have positive := entry.size_pos
  omega

def fromSlice (s : List Byte) : Option Berr := do
  let header ← GenericErrorStatusBlock.fromSlice s
  let ptr := GenericErrorStatusBlock.size
  let endOffset := ptr + header.dataLength.toNat
  let entries ← fromSliceLoop s ptr endOffset []
  some { header, entries }

/-- The loop body of `toBytes`: the state is the length that will be announced
and the entries written so far. -/
def appendEntry (written : UInt32 × List Byte) (entry : GenericErrorDataEntry) : UInt32 × List Byte :=
  let bytes := entry.toBytes
  (written.1 + UInt32.ofNat bytes.length, written.2 ++ bytes)

def toBytes (berr : Berr) : List Byte :=
  let (dataLength, payload) := berr.entries.foldl appendEntry (0, [])
  { berr.header with dataLength }.toBytes ++ payload

/-- The size of the packed table header, an ACPI header of 36 bytes with the
length and the address of the region behind it. -/
def BERT_SIZE : Nat := 48

/-- The signatures are the letters `BERR` and `BERT`. -/
def fromBertFile (s : List Byte) : Option Berr :=
  if [0x42, 0x45, 0x52, 0x52] <+: s then (sliceFrom s 4).bind fromSlice
  else if [0x42, 0x45, 0x52, 0x54] <+: s then (sliceFrom s BERT_SIZE).bind fromSlice
  else none

end Berr

/-! ## Reading what was written -/

namespace GenericErrorStatusBlock

@[simp] theorem to_bytes_length (block : GenericErrorStatusBlock) : block.toBytes.length = size := by
  simp [toBytes, size]

theorem from_slice_to_bytes (block : GenericErrorStatusBlock) (rest : List Byte) :
    fromSlice (block.toBytes ++ rest) = some block := by
  unfold fromSlice toBytes
  simp only [List.append_assoc, readU32_skip, readU32_head, bytes_of_u32_length, Nat.reduceSub,
    Nat.reduceLeDiff, le_refl, Option.bind_eq_bind, Option.bind_some]

end GenericErrorStatusBlock

namespace GenericErrorDataEntryHeader

@[simp] theorem to_bytes_length (header : GenericErrorDataEntryHeader) :
    header.toBytes.length = header.size := by
  unfold toBytes size
  split_ifs <;> simp [Block.size]

/-- A revision without a timestamp is read with a zero one. -/
theorem from_slice_to_bytes (header : GenericErrorDataEntryHeader)
    (untimed : ¬ header.revision ≥ 0x300 → header.timestamp = 0) (rest : List Byte) :
    fromSlice (header.toBytes ++ rest) = some header := by
  unfold fromSlice toBytes
  simp only [List.append_assoc, readU8_skip, readU16_skip, readU32_skip, readU64_skip,
    read_block_skip, readU8_head, readU16_head, readU32_head, read_block_head,
    List.length_cons, List.length_nil, bytes_of_u16_length, bytes_of_u32_length, Block.size,
    Nat.reduceAdd, Nat.reduceSub, Nat.reduceLeDiff, le_refl, Option.bind_eq_bind, Option.bind_some]
  by_cases recent : header.revision ≥ 0x300
  · simp only [if_pos recent, readU64_head, Option.bind_some]
  · simp only [if_neg recent, Option.bind_some]
    rw [← untimed recent]

theorem from_slice_untimed {s : List Byte} {header : GenericErrorDataEntryHeader}
    (parsed : fromSlice s = some header) (old : ¬ header.revision ≥ 0x300) : header.timestamp = 0 := by
  simp only [fromSlice, Option.bind_eq_bind, Option.bind_eq_some_iff, Option.some.injEq] at parsed
  obtain ⟨revision, _, _, _, _, _, _, _, _, _, _, _, _, _, _, _, timestamp, stored, rfl⟩ := parsed
  rw [if_neg old] at stored
  exact (Option.some.inj stored).symm

end GenericErrorDataEntryHeader

namespace GenericErrorDataEntry

/-- The entry with the length that its encoding announces. -/
def sized (entry : GenericErrorDataEntry) : GenericErrorDataEntry where
  header := { entry.header with errorDataLength := UInt32.ofNat entry.cperSection.toBytes.length }
  cperSection := entry.cperSection

/-- An entry that is found again in its encoding. -/
structure Encodable (entry : GenericErrorDataEntry) : Prop where
  fits : entry.cperSection.toBytes.length < 2 ^ 32
  body : CperSectionBody.fromSlice entry.header.sectionType entry.cperSection.toBytes =
    some entry.cperSection
  untimed : ¬ entry.header.revision ≥ 0x300 → entry.header.timestamp = 0

variable {entry : GenericErrorDataEntry}

theorem Encodable.sized_size (encodable : entry.Encodable) : entry.sized.size = entry.toBytes.length := by
  rw [toBytes, List.length_append, GenericErrorDataEntryHeader.to_bytes_length]
  change _ + (UInt32.ofNat entry.cperSection.toBytes.length).toNat = _
  rw [UInt32.toNat_ofNat', Nat.mod_eq_of_lt encodable.fits]
  rfl

theorem Encodable.from_slice_to_bytes (encodable : entry.Encodable) (rest : List Byte) :
    fromSlice (entry.toBytes ++ rest) = some entry.sized := by
  have header : GenericErrorDataEntryHeader.fromSlice
      (entry.sized.header.toBytes ++ (entry.cperSection.toBytes ++ rest)) = some entry.sized.header :=
    GenericErrorDataEntryHeader.from_slice_to_bytes entry.sized.header encodable.untimed _
  have announced : entry.sized.header.errorDataLength.toNat = entry.cperSection.toBytes.length := by
    change (UInt32.ofNat entry.cperSection.toBytes.length).toNat = _
    rw [UInt32.toNat_ofNat', Nat.mod_eq_of_lt encodable.fits]
  have body : slice (entry.sized.header.toBytes ++ (entry.cperSection.toBytes ++ rest))
      entry.sized.header.size (entry.sized.header.size + entry.sized.header.errorDataLength.toNat) =
        some entry.cperSection.toBytes := by
    rw [announced]
    exact slice_middle (GenericErrorDataEntryHeader.to_bytes_length _) rfl
  have chain : entry.toBytes ++ rest =
      entry.sized.header.toBytes ++ (entry.cperSection.toBytes ++ rest) := List.append_assoc ..
  have parsed : CperSectionBody.fromSlice entry.sized.header.sectionType entry.cperSection.toBytes =
      some entry.cperSection := encodable.body
  rw [chain, fromSlice, header]
  simp only [Option.bind_eq_bind, Option.bind_some, body, parsed]
  rfl

/-- What a successful parse read, part by part. -/
theorem from_slice_parts {s : List Byte} (parsed : fromSlice s = some entry) :
    GenericErrorDataEntryHeader.fromSlice s = some entry.header ∧ entry.size ≤ s.length ∧
      ∃ body, body <:+: s ∧ body.length = entry.header.errorDataLength.toNat ∧
        CperSectionBody.fromSlice entry.header.sectionType body = some entry.cperSection := by
  simp only [fromSlice, Option.bind_eq_bind, Option.bind_eq_some_iff, Option.some.injEq] at parsed
  obtain ⟨header, headerRead, body, cut, cperSection, read, rfl⟩ := parsed
  refine ⟨headerRead, slice_stop_le cut, body, slice_infix cut, ?_, read⟩
  rw [slice_length cut, Nat.add_sub_cancel_left]

/-- A parsed entry whose body is encoded as it was sized. -/
theorem encodable_of_parsed {s : List Byte} (parsed : fromSlice s = some entry)
    (recent : entry.cperSection.EncodedAsSized) : entry.Encodable ∧ entry.sized = entry := by
  obtain ⟨headerRead, _, body, _, size, read⟩ := from_slice_parts parsed
  have length : entry.cperSection.toBytes.length = entry.header.errorDataLength.toNat := by
    rw [(CperSectionBody.to_bytes_length_iff _).mpr recent, CperSectionBody.len_eq_of_from_slice read, size]
  refine ⟨⟨?_, ?_, ?_⟩, ?_⟩
  · rw [length]
    exact entry.header.errorDataLength.toNat_lt
  · exact CperSectionBody.from_slice_to_bytes read recent
  · exact GenericErrorDataEntryHeader.from_slice_untimed headerRead
  · rw [sized, length, UInt32.ofNat_toNat]

end GenericErrorDataEntry

namespace Berr

variable {s : List Byte} {entries : List GenericErrorDataEntry}

def entriesToBytes (entries : List GenericErrorDataEntry) : List Byte :=
  (entries.map GenericErrorDataEntry.toBytes).flatten

theorem append_entries_eq (written : UInt32 × List Byte) :
    entries.foldl appendEntry written =
      (written.1 + UInt32.ofNat (entriesToBytes entries).length, written.2 ++ entriesToBytes entries) := by
  induction entries generalizing written with
  | nil => simp [entriesToBytes]
  | cons entry rest ih =>
      rw [List.foldl_cons, ih]
      simp only [appendEntry, entriesToBytes, List.map_cons, List.flatten_cons, List.length_append,
        UInt32.ofNat_add, UInt32.add_assoc, List.append_assoc]

theorem to_bytes_eq (berr : Berr) :
    berr.toBytes =
      { berr.header with dataLength := UInt32.ofNat (entriesToBytes berr.entries).length }.toBytes ++
        entriesToBytes berr.entries := by
  simp only [toBytes, append_entries_eq, UInt32.zero_add, List.nil_append]

theorem entries_to_bytes_cons (entry : GenericErrorDataEntry) :
    entriesToBytes (entry :: entries) = entry.toBytes ++ entriesToBytes entries := rfl

/-- The loop reads every entry that was written behind the pointer. -/
theorem from_slice_loop_encoded (before : List Byte) (found : List GenericErrorDataEntry)
    (encodable : ∀ entry ∈ entries, entry.Encodable) :
    fromSliceLoop (before ++ entriesToBytes entries) before.length
      (before.length + (entriesToBytes entries).length) found =
        some (found ++ entries.map GenericErrorDataEntry.sized) := by
  have ahead : slice (before ++ entriesToBytes entries) before.length
      (before.length + (entriesToBytes entries).length) = some (entriesToBytes entries) := slice_tail rfl
  induction entries generalizing before found with
  | nil =>
      have unreadable : GenericErrorDataEntry.fromSlice (entriesToBytes []) = none := rfl
      rw [fromSliceLoop, ahead]
      simp only [unreadable, List.map_nil, List.append_nil]
  | cons entry rest ih =>
      have own := encodable entry (by simp)
      have others : ∀ other ∈ rest, other.Encodable := fun other member => encodable other (by simp [member])
      have size := own.sized_size
      rw [fromSliceLoop, ahead]
      simp only [entries_to_bytes_cons, own.from_slice_to_bytes, List.length_append]
      cases rest with
      | nil =>
          rw [if_pos (by rw [size]; simp [entriesToBytes])]
          rfl
      | cons second rest =>
          have positive : 0 < (entriesToBytes (second :: rest)).length := by
            have secondSize := (others second (by simp)).sized_size
            have secondPositive := second.sized.size_pos
            rw [entries_to_bytes_cons, List.length_append]
            omega
          have chain : before ++ (entry.toBytes ++ entriesToBytes (second :: rest)) =
              (before ++ entry.toBytes) ++ entriesToBytes (second :: rest) := (List.append_assoc ..).symm
          have pointer : before.length + entry.sized.size = (before ++ entry.toBytes).length := by
            rw [List.length_append, size]
          have stop : before.length + (entry.toBytes.length + (entriesToBytes (second :: rest)).length) =
              (before ++ entry.toBytes).length + (entriesToBytes (second :: rest)).length := by
            rw [List.length_append, Nat.add_assoc]
          rw [if_neg (by rw [size]; omega), chain, pointer, stop, ih _ _ others]
          · simp
          · exact slice_tail rfl

/-- What the loop finds was parsed, one entry behind the other. -/
theorem from_slice_loop_parsed {ptr endOffset : Nat} {before after : List GenericErrorDataEntry}
    (read : fromSliceLoop s ptr endOffset before = some after) :
    ∃ found, after = before ++ found ∧
      (∀ entry ∈ found, ∃ rest, rest <:+: s ∧ GenericErrorDataEntry.fromSlice rest = some entry) ∧
      ptr + (found.map GenericErrorDataEntry.size).sum ≤ endOffset := by
  fun_induction fromSliceLoop s ptr endOffset before with
  | case1 ptr before missing => cases read
  | case2 ptr before rest cut unreadable =>
      cases read
      have ordered := (slice_eq_some_iff.mp cut).1
      exact ⟨[], by simp, by simp, by simpa using ordered⟩
  | case3 ptr before rest cut entry parsed last =>
      cases read
      have inside := (GenericErrorDataEntry.from_slice_parts parsed).2.1
      have ordered := (slice_eq_some_iff.mp cut).1
      rw [slice_length cut] at inside
      refine ⟨[entry], rfl, by simpa using ⟨rest, slice_infix cut, parsed⟩, ?_⟩
      simp only [List.map_cons, List.map_nil, List.sum_cons, List.sum_nil]
      omega
  | case4 ptr before rest cut entry parsed more ih =>
      obtain ⟨found, rfl, each, total⟩ := ih read
      refine ⟨entry :: found, by simp, ?_, ?_⟩
      · intro other member
        rcases List.mem_cons.mp member with rfl | later
        · exact ⟨rest, slice_infix cut, parsed⟩
        · exact each other later
      · rw [List.map_cons, List.sum_cons]
        omega

/-- A region of encodable entries is read as it was written. -/
theorem from_slice_to_bytes (berr : Berr) (encodable : ∀ entry ∈ berr.entries, entry.Encodable)
    (fits : (entriesToBytes berr.entries).length < 2 ^ 32) :
    fromSlice berr.toBytes = some {
      header := { berr.header with dataLength := UInt32.ofNat (entriesToBytes berr.entries).length }
      entries := berr.entries.map GenericErrorDataEntry.sized } := by
  have announced : (UInt32.ofNat (entriesToBytes berr.entries).length).toNat =
      (entriesToBytes berr.entries).length := by
    rw [UInt32.toNat_ofNat', Nat.mod_eq_of_lt fits]
  rw [to_bytes_eq, fromSlice, GenericErrorStatusBlock.from_slice_to_bytes]
  simp only [Option.bind_eq_bind, Option.bind_some, announced]
  have loop := from_slice_loop_encoded
    ({ berr.header with dataLength := UInt32.ofNat (entriesToBytes berr.entries).length }
      : GenericErrorStatusBlock).toBytes [] encodable
  rw [GenericErrorStatusBlock.to_bytes_length, List.nil_append] at loop
  rw [loop]
  rfl

/-- The region of a file, with or without the table around it, is at its end. -/
theorem from_bert_file_suffix {s : List Byte} {berr : Berr} (read : fromBertFile s = some berr) :
    ∃ rest, rest <:+ s ∧ fromSlice rest = some berr := by
  have behind {start : Nat} (read : (sliceFrom s start).bind fromSlice = some berr) :
      ∃ rest, rest <:+ s ∧ fromSlice rest = some berr := by
    obtain ⟨rest, cut, read⟩ := Option.bind_eq_some_iff.mp read
    obtain ⟨_, rfl⟩ := slice_from_eq_some_iff.mp cut
    exact ⟨_, List.drop_suffix _ _, read⟩
  unfold fromBertFile at read
  split_ifs at read
  · exact behind read
  · exact behind read

/-- A parsed region makes the round trip if no body is a Firmware Error Record
of an old revision; the announced length becomes that of the entries read. -/
theorem parsed_region_round_trips (s : List Byte) (berr : Berr) (parsed : fromSlice s = some berr)
    (recent : ∀ entry ∈ berr.entries, entry.cperSection.EncodedAsSized) :
    ∃ again, fromSlice berr.toBytes = some again ∧ again.entries = berr.entries ∧
      again.header = { berr.header with dataLength := again.header.dataLength } ∧
      again.header.dataLength.toNat = (berr.entries.map GenericErrorDataEntry.size).sum := by
  simp only [fromSlice, Option.bind_eq_bind, Option.bind_eq_some_iff, Option.some.injEq] at parsed
  obtain ⟨header, _, entries, loop, rfl⟩ := parsed
  obtain ⟨found, same, each, total⟩ := from_slice_loop_parsed loop
  rw [List.nil_append] at same
  subst same
  have encodable : ∀ entry ∈ entries, entry.Encodable ∧ entry.sized = entry := by
    intro entry member
    obtain ⟨rest, _, read⟩ := each entry member
    exact GenericErrorDataEntry.encodable_of_parsed read (recent entry member)
  have sizes : (entriesToBytes entries).length = (entries.map GenericErrorDataEntry.size).sum := by
    rw [entriesToBytes, List.length_flatten, List.map_map]
    congr 1
    apply List.map_congr_left
    intro entry member
    obtain ⟨own, same⟩ := encodable entry member
    rw [Function.comp_apply, ← own.sized_size, same]
  have kept : entries.map GenericErrorDataEntry.sized = entries := by
    conv_rhs => rw [← List.map_id entries]
    exact List.map_congr_left fun entry member => (encodable entry member).2
  have bound := header.dataLength.toNat_lt
  have fits : (entriesToBytes entries).length < 2 ^ 32 := by
    rw [sizes]
    omega
  refine ⟨_, from_slice_to_bytes { header, entries } (fun entry member => (encodable entry member).1)
    fits, kept, rfl, ?_⟩
  change (UInt32.ofNat (entriesToBytes entries).length).toNat = _
  rw [UInt32.toNat_ofNat', Nat.mod_eq_of_lt fits, sizes]

/-- An entry without a timestamp, one with a timestamp, and three bytes that no
entry can be read from. -/
theorem region_of_two_entries_round_trips :
    let berr : Berr := {
      header := { dataLength := 140 }
      entries := [
        { header := { errorDataLength := 1 }, cperSection := .unknown Guid.ZERO [0xaa] },
        { header := { revision := 0x300, timestamp := 7 }, cperSection := .unknown Guid.ZERO [] }] }
    ∃ again, fromSlice berr.toBytes = some again ∧ again.entries = berr.entries ∧
      again.header = { berr.header with dataLength := again.header.dataLength } ∧
      again.header.dataLength.toNat = 137 :=
  parsed_region_round_trips
    (List.replicate 12 0 ++ [140] ++ List.replicate 7 0 ++
      (List.replicate 24 0 ++ [1] ++ List.replicate 39 0 ++ [0xaa]) ++
      (List.replicate 21 0 ++ [3] ++ List.replicate 42 0 ++ [7] ++ List.replicate 7 0) ++ [1, 2, 3])
    _ (by decide +kernel) (by decide)

end Berr

end Crashlog
