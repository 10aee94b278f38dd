import Crashlog.CheckedDecode

/-!
# Checksums

The checksum of a record adds its dwords up to zero. It detects a change of a
single byte wherever a byte is in a complete dword; the bytes of an incomplete
dword at the end do not count.
-/

namespace Crashlog

open Bytes

/-! ## Pieces of four bytes -/

theorem to_chunks_go_append (items : List Byte) (piece : Array Byte) (done : Array (List Byte)) :
    List.toChunks.go 4 items piece done = done.toList ++ List.toChunks.go 4 items piece #[] := by
  induction items generalizing piece done with
  | nil => simp [List.toChunks.go]
  | cons item rest ih =>
      rw [List.toChunks.go, List.toChunks.go]
      split_ifs
      · rw [ih, ih _ (#[].push piece.toList)]
        simp
      · exact ih _ _

theorem to_chunks_dword (a b c d : Byte) (rest : List Byte) :
    (a :: b :: c :: d :: rest).toChunks 4 = [a, b, c, d] :: rest.toChunks 4 := by
  cases rest with
  | nil => rfl
  | cons e rest => exact to_chunks_go_append rest #[e] #[[a, b, c, d]]

theorem decode_le_lt (bytes : List Byte) : decodeLE bytes < 256 ^ bytes.length := by
  induction bytes with
  | nil => decide
  | cons byte rest ih =>
      have small := byte.toNat_lt
      rw [decodeLE, List.length_cons, Nat.pow_succ]
      omega

theorem decode_le_injective {left right : List Byte} (length : left.length = right.length)
    (same : decodeLE left = decodeLE right) : left = right := by
  induction left generalizing right with
  | nil => exact (List.eq_nil_of_length_eq_zero length.symm).symm
  | cons byte rest ih =>
      cases right with
      | nil => cases length
      | cons other others =>
          have small := byte.toNat_lt
          have otherSmall := other.toNat_lt
          rw [decodeLE, decodeLE] at same
          rw [ih (Nat.succ.inj length) (by omega), UInt8.toNat_inj.mp (by omega : byte.toNat = other.toNat)]

/-! ## The sum of the dwords -/

/-- An incomplete dword counts as zero. -/
def dwordValue (dword : List Byte) : UInt32 :=
  if dword.length = 4 then UInt32.ofNat (decodeLE dword) else 0

/-- The wrapping sum of the dwords. -/
def dwordSum (data : List Byte) : UInt32 := ((data.toChunks 4).map dwordValue).foldl (· + ·) 0

namespace Record

def checksum (record : Record) : Option Bool :=
  if record.header.version.cldic then some (dwordSum record.data == 0) else none

end Record

/-- A debug build computes the same. -/
theorem Checked.Record.checksum_eq (record : Record) :
    Checked.Record.checksum record = .ok record.checksum := by
  unfold Checked.Record.checksum Crashlog.Record.checksum
  split_ifs <;> rfl

theorem foldl_add_eq (values : List UInt32) (start : UInt32) :
    values.foldl (· + ·) start = start + values.foldl (· + ·) 0 := by
  induction values generalizing start with
  | nil => simp
  | cons value rest ih =>
      rw [List.foldl_cons, List.foldl_cons, ih, ih (0 + value), UInt32.zero_add, UInt32.add_assoc]

theorem dword_sum_append {dword : List Byte} (full : dword.length = 4) (rest : List Byte) :
    dwordSum (dword ++ rest) = dwordValue dword + dwordSum rest := by
  match dword, full with
  | [a, b, c, d], _ =>
      change dwordSum (a :: b :: c :: d :: rest) = _
      rw [dwordSum, to_chunks_dword, List.map_cons, List.foldl_cons, foldl_add_eq, UInt32.zero_add]
      rfl

theorem dword_sum_short {data : List Byte} (short : data.length < 4) : dwordSum data = 0 := by
  match data, short with
  | [], _ => rfl
  | [_], _ => rfl
  | [_, _], _ => rfl
  | [_, _, _], _ => rfl

theorem dword_value_injective {left right : List Byte} (leftFull : left.length = 4) (rightFull : right.length = 4)
    (same : dwordValue left = dwordValue right) : left = right := by
  have leftBound := decode_le_lt left
  have rightBound := decode_le_lt right
  rw [leftFull] at leftBound
  rw [rightFull] at rightBound
  rw [dwordValue, dwordValue, if_pos leftFull, if_pos rightFull] at same
  have values := congrArg UInt32.toNat same
  rw [UInt32.toNat_ofNat_of_lt' leftBound, UInt32.toNat_ofNat_of_lt' rightBound] at values
  exact decode_le_injective (leftFull.trans rightFull.symm) values

/-- A byte contributes to the sum exactly when its dword is complete. -/
theorem dword_sum_set {data : List Byte} {position : Nat} (inside : position < data.length) {value : Byte}
    (changed : value ≠ data[position]) :
    dwordSum (data.set position value) = dwordSum data ↔ data.length / 4 * 4 ≤ position := by
  by_cases short : data.length < 4
  · rw [dword_sum_short (by simpa using short), dword_sum_short short]
    simp only [true_iff]
    omega
  · obtain ⟨dword, rest, full, rfl⟩ : ∃ dword rest, dword.length = 4 ∧ data = dword ++ rest :=
      ⟨data.take 4, data.drop 4, by simp only [List.length_take]; omega, (List.take_append_drop 4 data).symm⟩
    have size : (dword ++ rest).length / 4 * 4 = 4 + rest.length / 4 * 4 := by
      rw [List.length_append]
      omega
    rw [size]
    by_cases front : position < dword.length
    · rw [List.set_append_left _ _ front, dword_sum_append (by simpa using full), dword_sum_append full,
        UInt32.add_left_inj]
      refine iff_of_false ?_ (by omega)
      intro same
      have kept := dword_value_injective (by simpa using full) full same
      rw [List.getElem_append_left front] at changed
      have own : (dword.set position value)[position]? = some value := List.getElem?_set_self front
      rw [kept, List.getElem?_eq_getElem front, Option.some.injEq] at own
      exact changed own.symm
    · have behind : dword.length ≤ position := not_lt.mp front
      rw [List.length_append] at inside
      rw [List.getElem_append_right behind] at changed
      have later := dword_sum_set (by omega : position - dword.length < rest.length) changed
      rw [List.set_append_right _ _ behind, dword_sum_append full, dword_sum_append full,
        UInt32.add_right_inj, later]
      omega
termination_by data.length
decreasing_by
  have size : data.length = dword.length + rest.length := by
    rw [‹data = dword ++ rest›, List.length_append]
  omega

namespace Record

/-- A record with one byte of its data replaced. -/
def withByte (record : Record) (position : Nat) (value : Byte) : Record :=
  { record with data := record.data.set position value }

/-- A change of a single byte is detected exactly when the byte is not one of
the last bytes that do not make up a dword. -/
theorem corruption_detected_iff (record : Record) (valid : record.checksum = some true) (position : Nat)
    (inside : position < record.data.length) (value : Byte) (changed : value ≠ record.data[position]) :
    (record.withByte position value).checksum = some false ↔ position < record.data.length / 4 * 4 := by
  have cldic : record.header.version.cldic = true := by
    by_contra plain
    rw [checksum, if_neg plain] at valid
    cases valid
  rw [checksum, if_pos cldic, Option.some.injEq, beq_iff_eq] at valid
  have kept := dword_sum_set inside changed
  rw [valid] at kept
  have result : (record.withByte position value).checksum =
      some (dwordSum (record.data.set position value) == 0) := if_pos cldic
  rw [result, Option.some.injEq, beq_eq_false_iff_ne, ne_eq, kept, not_le]

/-- A record with a checksum and nothing but zeros. -/
def zeros (length : Nat) : Record where
  header := { version := { cldic := true } }
  data := List.replicate length 0

/-- A record of four dwords, the last of which brings the sum to zero. -/
def summed : Record where
  header := { version := { cldic := true } }
  data := [1, 0, 0, 0, 0x78, 0x56, 0x34, 0x12, 0xff, 0xff, 0xff, 0xff, 0x88, 0xa9, 0xcb, 0xed]

theorem summed_checksum : summed.checksum = some true := by decide

theorem third_dword_detected : (summed.withByte 10 0x7f).checksum = some false :=
  (corruption_detected_iff summed summed_checksum 10 (by decide) 0x7f (by decide)).2 (by decide)

/-- The last of five bytes can be changed unnoticed. -/
theorem fifth_byte_undetected : ¬ ∀ (record : Record) (_ : record.checksum = some true) (position : Nat)
    (inside : position < record.data.length) (value : Byte) (_ : value ≠ record.data[position]),
    (record.withByte position value).checksum = some false := by
  intro detected
  have last := detected (zeros 5) (by decide) 4 (by decide) 1 (by decide)
  exact absurd last (by decide)

end Record

end Crashlog
