import Crashlog.Text

/-!
# Numbers as digits

Unsigned numbers written with leading zeros, and read back from their
hexadecimal digits whatever the width. Names that are a stem with a number
behind it.
-/

namespace Crashlog

namespace Text

/-- Digits with leading zeros up to a width. -/
def zeroPadded (width : Nat) (digits : List Char) : String :=
  String.ofList (List.replicate (width - digits.length) '0' ++ digits)

def decimal (width value : Nat) : String := zeroPadded width (Nat.toDigits 10 value)

/-- Lower-case hexadecimal digits. -/
def hex (width value : Nat) : String := zeroPadded width (Nat.toDigits 16 value)

/-- The texts before and behind the first delimiter. -/
def splitOnce (delimiter : Char) (text : String) : Option (String × String) :=
  if delimiter ∈ text.toList then
    some (String.ofList (text.toList.takeWhile (· != delimiter)),
      String.ofList ((text.toList.dropWhile (· != delimiter)).drop 1))
  else none

theorem split_once_append {delimiter : Char} {first : String} (whole : delimiter ∉ first.toList) (rest : String) :
    splitOnce delimiter (first ++ String.singleton delimiter ++ rest) = some (first, rest) := by
  have chars : (first ++ String.singleton delimiter ++ rest).toList = first.toList ++ delimiter :: rest.toList := by
    simp
  have before : ∀ c ∈ first.toList, (c != delimiter) = true := by
    intro c member
    rw [bne_iff_ne]
    rintro rfl
    exact whole member
  rw [splitOnce, chars, if_pos (by simp), List.takeWhile_append_of_pos before, List.dropWhile_append_of_pos before]
  simp

/-! ## Numbers behind a stem -/

theorem rdrop_while_append {holds : Char → Bool} {stem digits : List Char}
    (numeric : ∀ c ∈ digits, holds c = true) :
    (stem ++ digits).rdropWhile holds = stem.rdropWhile holds := by
  induction digits using List.reverseRecOn with
  | nil => rw [List.append_nil]
  | append_singleton digits last ih =>
      rw [← List.append_assoc, List.rdropWhile_concat_pos _ _ _ (numeric last (by simp))]
      exact ih fun c member => numeric c (by simp [member])

/-- What the numeric characters at the end are cut off from. -/
theorem trim_end_numeric_eq_iff [UnicodeTables] {stem text : String}
    (whole : trimEndNumeric stem = stem) :
    trimEndNumeric text = stem ↔
      ∃ digits, AllChars (fun c => UnicodeTables.isNumeric c = true) digits ∧ text = stem ++ digits := by
  constructor
  · rintro rfl
    refine ⟨String.ofList (text.toList.rtakeWhile UnicodeTables.isNumeric), ?_, ?_⟩
    · intro c member
      rw [String.toList_ofList] at member
      exact List.mem_rtakeWhile_imp member
    · rw [trimEndNumeric, ← String.ofList_append, List.rdropWhile_append_rtakeWhile, String.ofList_toList]
  · rintro ⟨digits, numeric, rfl⟩
    rw [trimEndNumeric, String.toList_append, rdrop_while_append numeric]
    exact whole

/-! ## Numbers read back -/

theorem digit_value_digit_char {digit : Nat} (small : digit < 16) : digitValue digit.digitChar = digit := by
  have all : ∀ digit : Fin 16, digitValue (digit : Nat).digitChar = digit := by decide
  exact all ⟨digit, small⟩

theorem parse_radix_append (radix limit value : Nat) (first second : List Char) :
    parseRadix radix limit value (first ++ second) =
      (parseRadix radix limit value first).bind fun value => parseRadix radix limit value second := by
  induction first generalizing value with
  | nil => rfl
  | cons c rest ih =>
      rw [List.cons_append, parseRadix, parseRadix]
      split_ifs
      · rfl
      · rfl
      · exact ih _

theorem parse_radix_digits {limit value : Nat} (small : value < limit) :
    parseRadix 16 limit 0 (Nat.toDigits 16 value) = some value := by
  induction value using Nat.strongRecOn with
  | ind value ih =>
      rw [Nat.toDigits_eq_if (by decide)]
      split_ifs with single
      · rw [parseRadix, digit_value_digit_char single, if_neg (by omega), if_neg (by omega), parseRadix]
        simp
      · have last : value % 16 < 16 := Nat.mod_lt _ (by decide)
        have rebuilt : value / 16 * 16 + value % 16 = value := by omega
        rw [parse_radix_append, ih (value / 16) (by omega) (by omega), Option.bind_some, parseRadix,
          digit_value_digit_char last, rebuilt, if_neg (by omega), if_neg (by omega), parseRadix]

theorem parse_radix_zeros {limit : Nat} (positive : 0 < limit) (count : Nat) (digits : List Char) :
    parseRadix 16 limit 0 (List.replicate count '0' ++ digits) = parseRadix 16 limit 0 digits := by
  induction count with
  | zero => rfl
  | succ count ih =>
      have zero : digitValue '0' = 0 := by decide
      rw [List.replicate_succ, List.cons_append, parseRadix, zero, if_neg (by decide), if_neg (by omega)]
      exact ih

theorem digit_value_lt {value : Nat} {c : Char} (member : c ∈ Nat.toDigits 16 value) : digitValue c < 16 := by
  induction value using Nat.strongRecOn with
  | ind value ih =>
      rw [Nat.toDigits_eq_if (by decide)] at member
      split_ifs at member with single
      · rw [List.mem_singleton.mp member, digit_value_digit_char single]
        exact single
      · rcases List.mem_append.mp member with front | last
        · exact ih (value / 16) (by omega) front
        · have small : value % 16 < 16 := Nat.mod_lt _ (by decide)
          rw [List.mem_singleton.mp last, digit_value_digit_char small]
          exact small

theorem hex_digit_value_lt {width value : Nat} {c : Char} (member : c ∈ (hex width value).toList) :
    digitValue c < 16 := by
  rw [hex, zeroPadded, String.toList_ofList] at member
  rcases List.mem_append.mp member with zero | digit
  · rw [List.eq_of_mem_replicate zero]
    decide
  · exact digit_value_lt digit

theorem not_mem_hex {c : Char} (other : 16 ≤ digitValue c) (width value : Nat) : c ∉ (hex width value).toList :=
  fun member => absurd (hex_digit_value_lt member) (not_lt.mpr other)

theorem from_str_radix_hex {limit value : Nat} (small : value < limit) (width : Nat) :
    fromStrRadix 16 limit (hex width value) = some value := by
  have parsed : parseRadix 16 limit 0 (hex width value).toList = some value := by
    rw [hex, zeroPadded, String.toList_ofList, parse_radix_zeros (by omega), parse_radix_digits small]
  have unsigned : '+' ∉ (hex width value).toList := not_mem_hex (by decide) _ _
  have nonempty : (hex width value).toList ≠ [] := by
    rw [hex, zeroPadded, String.toList_ofList]
    exact List.append_ne_nil_of_right_ne_nil _ Nat.toDigits_ne_nil
  rw [fromStrRadix]
  split
  · next empty => exact absurd empty nonempty
  · next sign =>
      rw [sign] at unsigned
      exact absurd List.mem_cons_self unsigned
  · next sign =>
      rw [sign] at unsigned
      exact absurd List.mem_cons_self unsigned
  · exact parsed

end Text

end Crashlog
