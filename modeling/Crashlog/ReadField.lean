import Crashlog.Region
import Mathlib.Algebra.BigOperators.Group.Finset.Basic
import Mathlib.Data.Nat.Bitwise

/-!
# Bit fields of a record

A field is any run of at most 64 bits of the record data. The decoder collects
it chunk by chunk: an unaligned first chunk, whole bytes and a partial last
chunk, all through one mask. `read_field_eq` says what comes out in terms of
the single bits of the data.
-/

namespace Crashlog

open Bytes

/-! ## Numbers from bits -/

/-- The number with the first `count` of the given bits. -/
def bitSum (bits : Nat → Bool) : Nat → Nat
  | 0 => 0
  | count + 1 => bitSum bits count + (bits count).toNat * 2 ^ count

theorem bit_sum_eq (bits : Nat → Bool) (count : Nat) :
    bitSum bits count = ∑ i ∈ Finset.range count, (bits i).toNat * 2 ^ i := by
  induction count with
  | zero => rfl
  | succ count ih => rw [bitSum, Finset.sum_range_succ, ih]

theorem bit_sum_lt (bits : Nat → Bool) (count : Nat) : bitSum bits count < 2 ^ count := by
  induction count with
  | zero => exact Nat.one_pos
  | succ count ih =>
      have top : (bits count).toNat * 2 ^ count ≤ 2 ^ count := by
        cases bits count <;> simp
      rw [bitSum, Nat.pow_succ]
      omega

theorem test_bit_bit_sum (bits : Nat → Bool) (count i : Nat) :
    (bitSum bits count).testBit i = (decide (i < count) && bits i) := by
  induction count with
  | zero => simp [bitSum]
  | succ count ih =>
      have below := bit_sum_lt bits count
      rw [bitSum, Nat.add_comm, Nat.mul_comm, Nat.testBit_two_pow_mul_add _ below, ih]
      rcases lt_trichotomy i count with less | same | more
      · simp [less, Nat.lt_succ_of_lt less]
      · subst same
        cases bits i <;> simp
      · have high : (bits count).toNat.testBit (i - count) = false := by
          apply Nat.testBit_lt_two_pow
          calc (bits count).toNat ≤ 1 := Bool.toNat_le _
            _ < 2 ^ (i - count) := Nat.one_lt_two_pow (by omega)
        simp [high, show ¬ i < count by omega, show ¬ i < count + 1 by omega]

theorem eq_bit_sum {value count : Nat} {bits : Nat → Bool}
    (same : ∀ i, value.testBit i = (decide (i < count) && bits i)) : value = bitSum bits count := by
  apply Nat.eq_of_testBit_eq
  intro i
  rw [same, test_bit_bit_sum]

/-! ## The loop of the decoder -/

namespace Record

/-- The sum of the offset and the bit count is a machine word. -/
def readFieldLoop (data : List Byte) (offset size bit : Nat) (value : UInt64) : Option UInt64 :=
  if bit < size then
    let chunkSize := 8
    let chunk := (offset + bit) % 2 ^ 64 / chunkSize
    match data[chunk]? with
    | none => none
    | some byte =>
        let bitOffset := (offset + bit) % 2 ^ 64 % chunkSize
        let mask : UInt64 := (1 <<< (min (size - bit) chunkSize).toUInt64) - 1
        readFieldLoop data offset size (bit + (chunkSize - bitOffset))
          (value ||| (((byte.toUInt64 >>> bitOffset.toUInt64) &&& mask) <<< bit.toUInt64))
  else some value
termination_by size - bit
decreasing_by omega

/-- Large fields are not decoded. -/
def readField (record : Record) (offset size : Nat) : Option UInt64 :=
  if size > 64 then none else readFieldLoop record.data offset size 0 0

end Record

/-! ## The bits of the data -/

/-- Bit `k` of the data is bit `k % 8` of byte `k / 8`. -/
def bitAt (data : List Byte) (position : Nat) : Option Bool :=
  (data[position / 8]?).map fun byte => byte.toNat.testBit (position % 8)

/-- Bit `i` of the field that starts at an offset. -/
def fieldBit (data : List Byte) (offset i : Nat) : Option Bool := bitAt data ((offset + i) % 2 ^ 64)

/-- A field is readable when it is small enough and all its bits are present. -/
def FieldReadable (data : List Byte) (offset size : Nat) : Prop :=
  size ≤ 64 ∧ ∀ i < size, (fieldBit data offset i).isSome

instance (data : List Byte) (offset size : Nat) : Decidable (FieldReadable data offset size) :=
  inferInstanceAs (Decidable (_ ∧ _))

def fieldValue (data : List Byte) (offset size : Nat) : UInt64 :=
  UInt64.ofNat (bitSum (fun i => (fieldBit data offset i).getD false) size)

theorem bit_at_isSome_iff {data : List Byte} {position : Nat} :
    (bitAt data position).isSome ↔ position < 8 * data.length := by
  simp only [bitAt, Option.isSome_map, isSome_getElem?]
  omega

/-- Where the end of the field is a machine word, it only has to be in the data. -/
theorem field_readable_iff {data : List Byte} {offset size : Nat} (fits : offset + size ≤ 2 ^ 64) :
    FieldReadable data offset size ↔
      size ≤ 64 ∧ (size = 0 ∨ offset + size ≤ 8 * data.length) := by
  refine and_congr_right fun _ => ?_
  simp only [fieldBit, bit_at_isSome_iff]
  constructor
  · intro present
    rcases Nat.eq_zero_or_pos size with empty | positive
    · exact .inl empty
    · have last := present (size - 1) (by omega)
      right
      omega
  · intro ends i below
    omega

section Loop

variable {data : List Byte} {offset size bit : Nat} {value : UInt64}

/-- Within a chunk the position follows the bit count. -/
theorem position_in_chunk {i : Nat} (from_bit : bit ≤ i)
    (below : i < bit + (8 - (offset + bit) % 2 ^ 64 % 8)) :
    (offset + i) % 2 ^ 64 = (offset + bit) % 2 ^ 64 + (i - bit) := by
  omega

theorem field_bit_in_chunk {byte : Byte} {i : Nat} (chunk : data[(offset + bit) % 2 ^ 64 / 8]? = some byte)
    (from_bit : bit ≤ i) (below : i < bit + (8 - (offset + bit) % 2 ^ 64 % 8)) :
    fieldBit data offset i = some (byte.toNat.testBit ((offset + bit) % 2 ^ 64 % 8 + (i - bit))) := by
  have position := position_in_chunk from_bit below
  have index : ((offset + bit) % 2 ^ 64 + (i - bit)) / 8 = (offset + bit) % 2 ^ 64 / 8 := by omega
  have shift : ((offset + bit) % 2 ^ 64 + (i - bit)) % 8 = (offset + bit) % 2 ^ 64 % 8 + (i - bit) := by
    omega
  rw [fieldBit, bitAt, position, index, shift, chunk, Option.map_some]

theorem mask_toNat {width : Nat} (small : width ≤ 8) :
    ((1 <<< width.toUInt64 : UInt64) - 1).toNat = 2 ^ width - 1 := by
  have all : ∀ width < 9, ((1 <<< width.toUInt64 : UInt64) - 1).toNat = 2 ^ width - 1 := by decide
  exact all width (by omega)

/-- The bits of the chunk that is added to the value. -/
theorem chunk_test_bit {byte : Byte} {bitOffset width i : Nat} (small : width ≤ 8)
    (aligned : bitOffset < 8) (before : bit < 64) :
    (((byte.toUInt64 >>> bitOffset.toUInt64) &&&
        ((1 <<< width.toUInt64 : UInt64) - 1)) <<< bit.toUInt64).toNat.testBit i =
      (decide (i < 64) && decide (bit ≤ i) && decide (i - bit < width) &&
        byte.toNat.testBit (bitOffset + (i - bit))) := by
  have offsetWord : bitOffset.toUInt64.toNat % 64 = bitOffset := by
    simp only [Nat.toUInt64, UInt64.toNat_ofNat']
    omega
  have bitWord : bit.toUInt64.toNat % 64 = bit := by
    simp only [Nat.toUInt64, UInt64.toNat_ofNat']
    omega
  rw [UInt64.toNat_shiftLeft, UInt64.toNat_and, UInt64.toNat_shiftRight, mask_toNat small,
    offsetWord, bitWord, Nat.testBit_mod_two_pow, Nat.testBit_shiftLeft, Nat.testBit_and,
    Nat.testBit_shiftRight, Nat.testBit_two_pow_sub_one, UInt8.toNat_toUInt64]
  cases decide (i < 64) <;> cases decide (bit ≤ i) <;> cases decide (i - bit < width) <;> simp

/-- The value holds the bits that were consumed. -/
def Collected (data : List Byte) (offset size bit : Nat) (value : UInt64) : Prop :=
  ∀ i, value.toNat.testBit i =
    (decide (i < bit) && decide (i < size) && (fieldBit data offset i).getD false)

theorem collected_step {byte : Byte} (small : size ≤ 64) (more : bit < size)
    (chunk : data[(offset + bit) % 2 ^ 64 / 8]? = some byte)
    (collected : Collected data offset size bit value) :
    let bitOffset := (offset + bit) % 2 ^ 64 % 8
    Collected data offset size (bit + (8 - bitOffset))
      (value ||| (((byte.toUInt64 >>> bitOffset.toUInt64) &&&
        ((1 <<< (min (size - bit) 8).toUInt64 : UInt64) - 1)) <<< bit.toUInt64)) := by
  intro bitOffset i
  have aligned : bitOffset < 8 := Nat.mod_lt _ (by decide)
  rw [UInt64.toNat_or, Nat.testBit_or, collected i,
    chunk_test_bit (Nat.min_le_right _ _) aligned (by omega)]
  by_cases before : i < bit
  · simp [before, show ¬ bit ≤ i by omega, show i < bit + (8 - bitOffset) by omega]
  · by_cases inside : i < bit + (8 - bitOffset)
    · have bits : fieldBit data offset i = some (byte.toNat.testBit (bitOffset + (i - bit))) :=
        field_bit_in_chunk chunk (not_lt.mp before) inside
      by_cases wanted : i < size
      · rw [bits]
        simp [before, inside, wanted, show bit ≤ i by omega, show i < 64 by omega,
          show i - bit < size - bit by omega, show i - bit < 8 by omega]
      · simp [before, wanted, show ¬ i - bit < size - bit by omega]
    · have high : byte.toNat.testBit (bitOffset + (i - bit)) = false := by
        apply Nat.testBit_lt_two_pow
        calc byte.toNat < 2 ^ 8 := byte.toNat_lt
          _ ≤ 2 ^ (bitOffset + (i - bit)) := Nat.pow_le_pow_right (by decide) (by omega)
      simp [before, inside, high]

theorem collected_done (collected : Collected data offset size bit value) (done : size ≤ bit) :
    value = fieldValue data offset size := by
  have sum : value.toNat = bitSum (fun i => (fieldBit data offset i).getD false) size := by
    apply eq_bit_sum
    intro i
    rw [collected i]
    by_cases below : i < size
    · simp [below, show i < bit by omega]
    · simp [below]
  rw [fieldValue, ← sum, UInt64.ofNat_toNat]

theorem read_field_loop_eq (small : size ≤ 64) (collected : Collected data offset size bit value)
    (present : ∀ i < bit, i < size → (fieldBit data offset i).isSome) :
    Record.readFieldLoop data offset size bit value =
      if FieldReadable data offset size then some (fieldValue data offset size) else none := by
  induction bit, value using Record.readFieldLoop.induct data offset size with
  | case1 bit value more chunkSize chunk missing =>
      have unreadable : ¬ FieldReadable data offset size := by
        intro readable
        have here := readable.2 bit more
        rw [fieldBit, bitAt, Option.isSome_map] at here
        rw [show data[(offset + bit) % 2 ^ 64 / 8]? = none from missing] at here
        cases here
      rw [Record.readFieldLoop, if_pos more, if_neg unreadable]
      simp only [show data[(offset + bit) % 2 ^ 64 / 8]? = none from missing]
  | case2 bit value more chunkSize chunk byte found bitOffset mask ih =>
      have chunkRead : data[(offset + bit) % 2 ^ 64 / 8]? = some byte := found
      rw [Record.readFieldLoop, if_pos more]
      simp only [chunkRead]
      apply ih (collected_step small more chunkRead collected)
      intro i below wanted
      by_cases before : i < bit
      · exact present i before wanted
      · rw [field_bit_in_chunk chunkRead (not_lt.mp before) below]
        rfl
  | case3 bit value done =>
      have readable : FieldReadable data offset size :=
        ⟨small, fun i below => present i (by omega) below⟩
      rw [Record.readFieldLoop, if_neg done, if_pos readable,
        collected_done collected (not_lt.mp done)]

end Loop

/-- A readable field is the number made of its bits. -/
theorem Record.read_field_eq (record : Record) (offset size : Nat) :
    record.readField offset size =
      if FieldReadable record.data offset size then some (fieldValue record.data offset size)
      else none := by
  by_cases large : size > 64
  · have unreadable : ¬ FieldReadable record.data offset size := fun readable =>
      absurd readable.1 (by omega)
    rw [readField, if_pos large, if_neg unreadable]
  · rw [readField, if_neg large]
    apply read_field_loop_eq (not_lt.mp large)
    · intro i
      simp
    · intro i below
      omega

namespace Record

/-- A field is missing exactly when it is too large or leaves the data, and is
the sum of its bits otherwise. -/
theorem read_field_exact (record : Record) (offset size : Nat) (fits : offset + size < 2 ^ 64) :
    (record.readField offset size = none ↔
      64 < size ∨ 0 < size ∧ 8 * record.data.length < offset + size) ∧
    ∀ value, record.readField offset size = some value →
      value.toNat = ∑ i ∈ Finset.range size, ((bitAt record.data (offset + i)).getD false).toNat * 2 ^ i := by
  have readable : FieldReadable record.data offset size ↔ _ := field_readable_iff fits.le
  rw [read_field_eq]
  constructor
  · rw [ite_eq_right_iff, readable]
    simp only [reduceCtorEq, imp_false]
    omega
  · intro value found
    split_ifs at found with inside
    cases found
    have small : bitSum (fun i => (fieldBit record.data offset i).getD false) size < 2 ^ 64 :=
      (bit_sum_lt _ _).trans_le (Nat.pow_le_pow_right (by decide) inside.1)
    rw [fieldValue, UInt64.toNat_ofNat', Nat.mod_eq_of_lt small, bit_sum_eq]
    apply Finset.sum_congr rfl
    intro i member
    have below := Finset.mem_range.mp member
    rw [fieldBit, Nat.mod_eq_of_lt (by omega)]

/-- Eight bits across two bytes. -/
theorem unaligned_byte_read : ({ data := [0x80, 0x81] } : Record).readField 4 8 = some 0x18 := by
  obtain ⟨missing, sum⟩ := read_field_exact { data := [0x80, 0x81] } 4 8 (by decide)
  cases found : ({ data := [0x80, 0x81] } : Record).readField 4 8 with
  | none => exact absurd (missing.mp found) (by decide)
  | some value =>
      have bits := sum value found
      rw [← UInt64.toNat_inj.mp (bits.trans (by decide : _ = (0x18 : UInt64).toNat))]

end Record

end Crashlog
