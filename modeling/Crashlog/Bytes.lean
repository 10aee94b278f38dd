import Mathlib.Data.List.Basic
import Mathlib.Tactic.Ring
import Mathlib.Tactic.Linarith

/-!
# Byte slices and little-endian words

Checked slicing, fixed-width blocks and unsigned words in little-endian byte
order. A read returns `none` exactly when its range leaves the slice. Nothing
here knows about a record format: the format modules instantiate these reads
at their own offsets.
-/

namespace Crashlog.Bytes

abbrev Byte := UInt8

/-- The checked range `start .. stop` of a slice. -/
def slice {α : Type*} (items : List α) (start stop : Nat) : Option (List α) :=
  if start ≤ stop ∧ stop ≤ items.length then
    some ((items.drop start).take (stop - start))
  else none

/-- The checked open range `start ..` of a slice. -/
def sliceFrom {α : Type*} (items : List α) (start : Nat) : Option (List α) :=
  if start ≤ items.length then some (items.drop start) else none

section Slices

variable {α : Type*} {items others found : List α} {start stop count : Nat}

theorem slice_eq_some_iff :
    slice items start stop = some found ↔
      start ≤ stop ∧ stop ≤ items.length ∧ found = (items.drop start).take (stop - start) := by
  unfold slice
  split_ifs with range
  · simp only [Option.some.injEq, range, true_and]
    exact eq_comm
  · simp only [false_iff]
    intro found
    exact range ⟨found.1, found.2.1⟩

theorem slice_length (read : slice items start stop = some found) :
    found.length = stop - start := by
  obtain ⟨ordered, bounded, rfl⟩ := slice_eq_some_iff.mp read
  simp only [List.length_take, List.length_drop]
  omega

theorem slice_stop_le (read : slice items start stop = some found) : stop ≤ items.length :=
  (slice_eq_some_iff.mp read).2.1

theorem slice_infix (read : slice items start stop = some found) : found <:+: items := by
  obtain ⟨_, _, rfl⟩ := slice_eq_some_iff.mp read
  exact (List.take_prefix _ _).isInfix.trans (List.drop_suffix _ _).isInfix

theorem slice_head (size : items.length = count) :
    slice (items ++ others) 0 count = some items := by
  rw [slice_eq_some_iff]
  refine ⟨Nat.zero_le _, by simp [size], ?_⟩
  simp [← size]

/-- A range that starts behind the first block is a range of the rest. -/
theorem slice_skip (size : items.length = count) (ordered : start ≤ stop) (behind : count ≤ start) :
    slice (items ++ others) start stop = slice others (start - count) (stop - count) := by
  subst size
  have shifted : (items ++ others).drop start = others.drop (start - items.length) := by
    rw [List.drop_append, List.drop_eq_nil_of_le behind, List.nil_append]
  have width : stop - items.length - (start - items.length) = stop - start := by omega
  unfold slice
  rw [shifted, width, List.length_append]
  exact if_congr (by omega) rfl rfl

theorem slice_middle {before after : List α} (ahead : before.length = start)
    (size : items.length = count) :
    slice (before ++ (items ++ after)) start (start + count) = some items := by
  rw [slice_skip ahead (Nat.le_add_right _ _) le_rfl, Nat.sub_self, Nat.add_sub_cancel_left]
  exact slice_head size

theorem slice_tail (ahead : items.length = start) :
    slice (items ++ others) start (start + others.length) = some others := by
  have middle := @slice_middle _ others _ _ items [] ahead rfl
  rwa [List.append_nil] at middle

theorem slice_from_head (size : items.length = count) :
    sliceFrom (items ++ others) count = some others := by
  subst size
  simp [sliceFrom]

theorem slice_from_eq_some_iff :
    sliceFrom items start = some found ↔ start ≤ items.length ∧ found = items.drop start := by
  unfold sliceFrom
  split_ifs with range
  · simp only [Option.some.injEq, range, true_and]
    exact eq_comm
  · simp [range]

end Slices

/-- Two slices that both hold at least `count` items and begin with the same
`count` items. Every read below `count` then gives the same answer in both. -/
structure SamePrefix {α : Type*} (count : Nat) (left right : List α) : Prop where
  left_size : count ≤ left.length
  right_size : count ≤ right.length
  same : left.take count = right.take count

namespace SamePrefix

variable {α : Type*} {count less start stop index : Nat} {left right : List α}

theorem symm (agree : SamePrefix count left right) : SamePrefix count right left :=
  ⟨agree.right_size, agree.left_size, agree.same.symm⟩

theorem mono (agree : SamePrefix count left right) (smaller : less ≤ count) :
    SamePrefix less left right := by
  refine ⟨smaller.trans agree.left_size, smaller.trans agree.right_size, ?_⟩
  have cut := congrArg (List.take less) agree.same
  simpa [List.take_take, Nat.min_eq_left smaller] using cut

theorem append (size : count ≤ left.length) (rest : List α) :
    SamePrefix count left (left ++ rest) := by
  refine ⟨size, by simp only [List.length_append]; omega, ?_⟩
  rw [List.take_append_of_le_length size]

theorem slice_eq (agree : SamePrefix count left right) (below : stop ≤ count) :
    slice left start stop = slice right start stop := by
  have cut := agree.mono below
  have taken : ∀ items : List α,
      (items.drop start).take (stop - start) = (items.take stop).drop start := by
    intro items
    rw [List.drop_take]
  unfold slice
  rw [taken, taken, cut.same]
  exact if_congr (by have := cut.left_size; have := cut.right_size; omega) rfl rfl

theorem getElem?_eq (agree : SamePrefix count left right) (below : index < count) :
    left[index]? = right[index]? := by
  have atTake := congrArg (fun items => items[index]?) agree.same
  simpa [List.getElem?_take, below] using atTake

end SamePrefix

/-! ## Little-endian values -/

def decodeLE : List Byte → Nat
  | [] => 0
  | byte :: rest => byte.toNat + 256 * decodeLE rest

def encodeLE : Nat → Nat → List Byte
  | 0, _ => []
  | width + 1, value => UInt8.ofNat value :: encodeLE width (value / 256)

@[simp] theorem encode_le_length (width value : Nat) : (encodeLE width value).length = width := by
  induction width generalizing value with
  | zero => rfl
  | succ width ih => simp [encodeLE, ih]

theorem decode_encode_le (width value : Nat) (fits : value < 256 ^ width) :
    decodeLE (encodeLE width value) = value := by
  induction width generalizing value with
  | zero =>
      simp only [pow_zero, Nat.lt_one_iff] at fits
      simp [encodeLE, decodeLE, fits]
  | succ width ih =>
      have smaller : value / 256 < 256 ^ width := by
        rw [pow_succ] at fits
        omega
      simp only [encodeLE, decodeLE, ih _ smaller, UInt8.toNat_ofNat']
      omega

/-! ## Typed reads and writes -/

/-- A block of exactly `count` bytes. -/
structure Block (count : Nat) where
  bytes : List Byte
  size : bytes.length = count
  deriving DecidableEq, Repr

def Block.zero (count : Nat) : Block count := ⟨List.replicate count 0, List.length_replicate⟩

@[ext] theorem Block.ext {count : Nat} {left right : Block count}
    (same : left.bytes = right.bytes) : left = right := by
  cases left
  cases right
  simpa using same

/-- The `width` bytes stored at `offset`. -/
def field (bytes : List Byte) (offset width : Nat) : Option (List Byte) :=
  slice bytes offset (offset + width)

/-- The conversion of a slice into an array, which checks the length. -/
def Block.ofBytes? (count : Nat) (bytes : List Byte) : Option (Block count) :=
  if size : bytes.length = count then some ⟨bytes, size⟩ else none

def readBlock (count : Nat) (bytes : List Byte) (offset : Nat) : Option (Block count) :=
  (field bytes offset count).bind (Block.ofBytes? count)

def readU8 (bytes : List Byte) (offset : Nat) : Option UInt8 := bytes[offset]?

def readU16 (bytes : List Byte) (offset : Nat) : Option UInt16 :=
  (field bytes offset 2).map fun word => UInt16.ofNat (decodeLE word)

def readU32 (bytes : List Byte) (offset : Nat) : Option UInt32 :=
  (field bytes offset 4).map fun word => UInt32.ofNat (decodeLE word)

def readU64 (bytes : List Byte) (offset : Nat) : Option UInt64 :=
  (field bytes offset 8).map fun word => UInt64.ofNat (decodeLE word)

/-- `count` consecutive dwords. -/
def readU32s (bytes : List Byte) (offset count : Nat) : Option (List UInt32) :=
  (List.range count).mapM fun dword => readU32 bytes (offset + dword * 4)

def bytesOfU16 (word : UInt16) : List Byte := encodeLE 2 word.toNat
def bytesOfU32 (word : UInt32) : List Byte := encodeLE 4 word.toNat
def bytesOfU64 (word : UInt64) : List Byte := encodeLE 8 word.toNat

@[simp] theorem bytes_of_u16_length (word : UInt16) : (bytesOfU16 word).length = 2 :=
  encode_le_length _ _

@[simp] theorem bytes_of_u32_length (word : UInt32) : (bytesOfU32 word).length = 4 :=
  encode_le_length _ _

@[simp] theorem bytes_of_u64_length (word : UInt64) : (bytesOfU64 word).length = 8 :=
  encode_le_length _ _

theorem map_m_congr {α β : Type} {items : List α} {f g : α → Option β}
    (same : ∀ item ∈ items, f item = g item) : items.mapM f = items.mapM g := by
  induction items with
  | nil => rfl
  | cons item rest ih =>
      rw [List.mapM_cons, List.mapM_cons, same item (by simp),
        ih fun other member => same other (by simp [member])]

theorem map_m_some_of_mem {α β : Type} {items : List α} {f : α → Option β} {results : List β}
    (collected : items.mapM f = some results) {item : α} (member : item ∈ items) :
    ∃ result, f item = some result := by
  induction items generalizing results with
  | nil => simp at member
  | cons head rest ih =>
      rw [List.mapM_cons] at collected
      obtain ⟨first, headFound, collected⟩ := Option.bind_eq_some_iff.mp collected
      obtain ⟨others, restFound, _⟩ := Option.bind_eq_some_iff.mp collected
      rcases List.mem_cons.mp member with rfl | later
      · exact ⟨first, headFound⟩
      · exact ih restFound later

section Locality

variable {count : Nat} {left right : List Byte}

theorem SamePrefix.field_eq {offset width : Nat} (agree : SamePrefix count left right)
    (below : offset + width ≤ count) :
    field left offset width = field right offset width :=
  agree.slice_eq below

theorem SamePrefix.readU8_eq (agree : SamePrefix count left right) (offset : Nat)
    (below : offset + 1 ≤ count) :
    readU8 left offset = readU8 right offset :=
  agree.getElem?_eq below

theorem SamePrefix.readU16_eq (agree : SamePrefix count left right) (offset : Nat)
    (below : offset + 2 ≤ count) :
    readU16 left offset = readU16 right offset := by
  simp only [readU16, agree.field_eq below]

theorem SamePrefix.readU32_eq (agree : SamePrefix count left right) (offset : Nat)
    (below : offset + 4 ≤ count) :
    readU32 left offset = readU32 right offset := by
  simp only [readU32, agree.field_eq below]

theorem SamePrefix.readU64_eq (agree : SamePrefix count left right) (offset : Nat)
    (below : offset + 8 ≤ count) :
    readU64 left offset = readU64 right offset := by
  simp only [readU64, agree.field_eq below]

theorem SamePrefix.readU32s_eq {offset words : Nat} (agree : SamePrefix count left right)
    (below : offset + words * 4 ≤ count) :
    readU32s left offset words = readU32s right offset words := by
  apply map_m_congr
  intro dword member
  have inside := List.mem_range.mp member
  exact agree.readU32_eq _ (by omega)

end Locality

section Bounds

variable {offset : Nat} {bytes : List Byte}

theorem readU8_bound {word : UInt8} (read : readU8 bytes offset = some word) :
    offset + 1 ≤ bytes.length :=
  (List.getElem?_eq_some_iff.mp read).1

theorem readU16_bound {word : UInt16} (read : readU16 bytes offset = some word) :
    offset + 2 ≤ bytes.length := by
  obtain ⟨block, found, _⟩ := Option.map_eq_some_iff.mp read
  exact slice_stop_le found

theorem readU32_bound {word : UInt32} (read : readU32 bytes offset = some word) :
    offset + 4 ≤ bytes.length := by
  obtain ⟨block, found, _⟩ := Option.map_eq_some_iff.mp read
  exact slice_stop_le found

/-- A non-empty run of dwords ends inside the slice. -/
theorem readU32s_bound {words : Nat} {found : List UInt32}
    (read : readU32s bytes offset (words + 1) = some found) :
    offset + (words + 1) * 4 ≤ bytes.length := by
  obtain ⟨last, lastRead⟩ := map_m_some_of_mem read (List.mem_range.mpr (Nat.lt_succ_self words))
  have bounded := readU32_bound lastRead
  omega

/-! Conversely a read succeeds as soon as it ends inside the slice. -/

theorem slice_is_some {start stop : Nat} :
    (slice bytes start stop).isSome ↔ start ≤ stop ∧ stop ≤ bytes.length := by
  unfold slice
  split_ifs with range <;> simp [range]

theorem field_is_some {width : Nat} :
    (field bytes offset width).isSome ↔ offset + width ≤ bytes.length := by
  simp [field, slice_is_some]

theorem readU8_is_some : (readU8 bytes offset).isSome ↔ offset + 1 ≤ bytes.length := by
  rw [readU8, isSome_getElem?]
  exact Nat.lt_iff_add_one_le

theorem readU16_is_some : (readU16 bytes offset).isSome ↔ offset + 2 ≤ bytes.length := by
  simp [readU16, field_is_some]

theorem readU32_is_some : (readU32 bytes offset).isSome ↔ offset + 4 ≤ bytes.length := by
  simp [readU32, field_is_some]

theorem readU64_is_some : (readU64 bytes offset).isSome ↔ offset + 8 ≤ bytes.length := by
  simp [readU64, field_is_some]

theorem read_block_is_some {count : Nat} :
    (readBlock count bytes offset).isSome ↔ offset + count ≤ bytes.length := by
  rw [← field_is_some]
  constructor
  · intro read
    obtain ⟨found, read⟩ := Option.isSome_iff_exists.mp read
    obtain ⟨block, stored, _⟩ := Option.bind_eq_some_iff.mp read
    exact Option.isSome_iff_exists.mpr ⟨block, stored⟩
  · intro stored
    obtain ⟨block, stored⟩ := Option.isSome_iff_exists.mp stored
    have size : block.length = count := by
      rw [slice_length stored, Nat.add_sub_cancel_left]
    simp [readBlock, stored, Block.ofBytes?, size]

theorem bind_is_some {α β : Type*} {value : Option α} {next : α → Option β} (present : value.isSome)
    (follows : ∀ found, value = some found → (next found).isSome) : (value.bind next).isSome := by
  obtain ⟨found, rfl⟩ := Option.isSome_iff_exists.mp present
  exact follows found rfl

end Bounds

/-! ## Resizing -/

/-- Cut or zero-fill to exactly `count` bytes. -/
def resize (bytes : List Byte) (count : Nat) : List Byte :=
  bytes.take count ++ List.replicate (count - bytes.length) 0

@[simp] theorem resize_length (bytes : List Byte) (count : Nat) : (resize bytes count).length = count := by
  simp only [resize, List.length_append, List.length_take, List.length_replicate]
  omega

theorem resize_eq_self_iff {bytes : List Byte} {count : Nat} :
    resize bytes count = bytes ↔ count = bytes.length := by
  constructor
  · intro same
    have sizes := congrArg List.length same
    simpa using sizes
  · rintro rfl
    simp [resize]

/-! ## Reading back what was written

A serialized structure is a chain of blocks. A read skips the blocks before
its offset and then meets the block that was written there. -/

section Readback

variable {block rest : List Byte} {offset width : Nat}

theorem field_skip (behind : block.length ≤ offset) :
    field (block ++ rest) offset width = field rest (offset - block.length) width := by
  unfold field
  rw [slice_skip rfl (Nat.le_add_right _ _) behind, Nat.sub_add_comm behind]

theorem field_head (size : block.length = width) : field (block ++ rest) 0 width = some block := by
  rw [field, Nat.zero_add]
  exact slice_head size

theorem readU8_skip (behind : block.length ≤ offset) :
    readU8 (block ++ rest) offset = readU8 rest (offset - block.length) :=
  List.getElem?_append_right behind

theorem readU16_skip (behind : block.length ≤ offset) :
    readU16 (block ++ rest) offset = readU16 rest (offset - block.length) := by
  simp only [readU16, field_skip behind]

theorem readU32_skip (behind : block.length ≤ offset) :
    readU32 (block ++ rest) offset = readU32 rest (offset - block.length) := by
  simp only [readU32, field_skip behind]

theorem readU64_skip (behind : block.length ≤ offset) :
    readU64 (block ++ rest) offset = readU64 rest (offset - block.length) := by
  simp only [readU64, field_skip behind]

theorem readU8_head (word : UInt8) : readU8 ([word] ++ rest) 0 = some word := rfl

theorem readU16_head (word : UInt16) : readU16 (bytesOfU16 word ++ rest) 0 = some word := by
  rw [readU16, field_head (bytes_of_u16_length word), Option.map_some, bytesOfU16,
    decode_encode_le 2 _ word.toNat_lt, UInt16.ofNat_toNat]

theorem readU32_head (word : UInt32) : readU32 (bytesOfU32 word ++ rest) 0 = some word := by
  rw [readU32, field_head (bytes_of_u32_length word), Option.map_some, bytesOfU32,
    decode_encode_le 4 _ word.toNat_lt, UInt32.ofNat_toNat]

theorem readU64_head (word : UInt64) : readU64 (bytesOfU64 word ++ rest) 0 = some word := by
  rw [readU64, field_head (bytes_of_u64_length word), Option.map_some, bytesOfU64,
    decode_encode_le 8 _ word.toNat_lt, UInt64.ofNat_toNat]

theorem read_block_eq_some_iff {count : Nat} {bytes : List Byte} {found : Block count} :
    readBlock count bytes offset = some found ↔ field bytes offset count = some found.bytes := by
  constructor
  · intro read
    obtain ⟨block, stored, converted⟩ := Option.bind_eq_some_iff.mp read
    unfold Block.ofBytes? at converted
    split_ifs at converted with size
    cases converted
    exact stored
  · intro stored
    simp [readBlock, stored, Block.ofBytes?, found.size]

theorem read_block_skip (count : Nat) (behind : block.length ≤ offset) :
    readBlock count (block ++ rest) offset = readBlock count rest (offset - block.length) := by
  apply Option.ext
  intro found
  rw [read_block_eq_some_iff, read_block_eq_some_iff, field_skip behind]

theorem read_block_head {count : Nat} (found : Block count) :
    readBlock count (found.bytes ++ rest) 0 = some found := by
  rw [read_block_eq_some_iff, field_head found.size]

end Readback

end Crashlog.Bytes
