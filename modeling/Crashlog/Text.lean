import Crashlog.Error
import Mathlib.Data.String.Basic
import Mathlib.Data.List.Nodup
import Mathlib.Data.List.TakeWhile
import Mathlib.Data.List.DropRight

/-!
# Strings

Character classes and case mapping come from the Unicode tables, of which
only the ASCII part is fixed here. The rest of the module is about numbers in
texts: how they are parsed, and how decimal numbers that are appended to names
tell instances of a name apart.
-/

namespace Crashlog

/-- The Unicode tables of the string library. -/
class UnicodeTables where
  toLowercase : String → String
  toUppercase : String → String
  isNumeric : Char → Bool
  to_lowercase_ascii : ∀ text : String, (∀ c ∈ text.toList, c.toNat < 128) →
    toLowercase text = String.ofList (text.toList.map Char.toLower)
  to_uppercase_ascii : ∀ text : String, (∀ c ∈ text.toList, c.toNat < 128) →
    toUppercase text = String.ofList (text.toList.map Char.toUpper)
  is_numeric_ascii : ∀ c : Char, c.toNat < 128 → isNumeric c = c.isDigit

/-- Tables that know the ASCII characters only. -/
@[reducible] def UnicodeTables.ascii : UnicodeTables where
  toLowercase text := String.ofList (text.toList.map Char.toLower)
  toUppercase text := String.ofList (text.toList.map Char.toUpper)
  isNumeric := Char.isDigit
  to_lowercase_ascii _ _ := rfl
  to_uppercase_ascii _ _ := rfl
  is_numeric_ascii _ _ := rfl

namespace Text

def AllChars (holds : Char → Prop) (text : String) : Prop := ∀ c ∈ text.toList, holds c

/-- Character by character, not over the type of characters. -/
instance AllChars.decidable (holds : Char → Prop) [DecidablePred holds] (text : String) :
    Decidable (AllChars holds text) :=
  decidable_of_iff (text.toList.all fun c => decide (holds c)) (by simp [AllChars])

def split (delimiter : Char) (text : String) : List String :=
  (text.toList.splitOn delimiter).map String.ofList

theorem split_append {delimiter : Char} {first : String} (whole : delimiter ∉ first.toList)
    (rest : String) :
    split delimiter (first ++ String.singleton delimiter ++ rest) = first :: split delimiter rest := by
  simp only [split, String.toList_append, String.toList_singleton, List.append_assoc,
    List.cons_append, List.nil_append, List.splitOn_append_cons_self_of_not_mem whole, List.map_cons,
    String.ofList_toList]

theorem split_single {delimiter : Char} {text : String} (whole : delimiter ∉ text.toList) :
    split delimiter text = [text] := by
  simp only [split, List.splitOn_eq_singleton whole, List.map_cons, List.map_nil,
    String.ofList_toList]

theorem split_ne_nil (delimiter : Char) (text : String) : split delimiter text ≠ [] := by
  intro empty
  exact List.splitOn_ne_nil _ _ (List.map_eq_nil_iff.mp empty)

theorem not_mem_of_mem_splitOn {delimiter : Char} {chars piece : List Char}
    (member : piece ∈ chars.splitOn delimiter) : delimiter ∉ piece := by
  induction chars generalizing piece with
  | nil =>
      rw [List.splitOn_nil, List.mem_singleton] at member
      simp [member]
  | cons char rest ih =>
      rw [List.splitOn_cons_eq_if_modifyHead] at member
      split_ifs at member with found
      · rcases List.mem_cons.mp member with rfl | later
        · exact List.not_mem_nil
        · exact ih later
      · obtain ⟨first, others, whole⟩ := List.exists_cons_of_ne_nil (List.splitOn_ne_nil delimiter rest)
        rw [whole] at member ih
        rcases List.mem_cons.mp member with rfl | later
        · rw [List.mem_cons, not_or]
          exact ⟨fun same => found (by simp [same]), ih List.mem_cons_self⟩
        · exact ih (List.mem_cons_of_mem _ later)

theorem mem_of_mem_splitOn {delimiter char : Char} {chars piece : List Char}
    (member : piece ∈ chars.splitOn delimiter) (inside : char ∈ piece) : char ∈ chars := by
  induction chars generalizing piece with
  | nil =>
      rw [List.splitOn_nil, List.mem_singleton] at member
      rwa [member] at inside
  | cons first rest ih =>
      rw [List.splitOn_cons_eq_if_modifyHead] at member
      split_ifs at member
      · rcases List.mem_cons.mp member with rfl | later
        · exact absurd inside List.not_mem_nil
        · exact List.mem_cons_of_mem _ (ih later inside)
      · obtain ⟨front, others, whole⟩ := List.exists_cons_of_ne_nil (List.splitOn_ne_nil delimiter rest)
        rw [whole] at member ih
        rcases List.mem_cons.mp member with rfl | later
        · rcases List.mem_cons.mp inside with rfl | behind
          · exact List.mem_cons_self
          · exact List.mem_cons_of_mem _ (ih List.mem_cons_self behind)
        · exact List.mem_cons_of_mem _ (ih (List.mem_cons_of_mem _ later) inside)

theorem not_mem_of_split {delimiter : Char} {text piece : String} (member : piece ∈ split delimiter text) :
    delimiter ∉ piece.toList := by
  obtain ⟨chars, inside, rfl⟩ := List.mem_map.mp member
  rw [String.toList_ofList]
  exact not_mem_of_mem_splitOn inside

def stripPrefix (prefixed text : String) : Option String :=
  if prefixed.toList.isPrefixOf text.toList then
    some (String.ofList (text.toList.drop prefixed.toList.length))
  else none

def trimEndNumeric [UnicodeTables] (text : String) : String :=
  String.ofList (text.toList.rdropWhile UnicodeTables.isNumeric)

/-! ## Numbers -/

def parseDigits : Nat → List Char → Except IntErrorKind Nat
  | value, [] => .ok value
  | value, c :: rest =>
      if !c.isDigit then .error .invalidDigit
      else if 2 ^ 64 ≤ value * 10 + (c.toNat - '0'.toNat) then .error .posOverflow
      else parseDigits (value * 10 + (c.toNat - '0'.toNat)) rest

/-- A sign alone is no number. -/
def parseUsize (text : String) : Except IntErrorKind Nat :=
  match text.toList with
  | [] => .error .empty
  | ['+'] => .error .invalidDigit
  | '+' :: digits => parseDigits 0 digits
  | digits => parseDigits 0 digits

def digitValue (c : Char) : Nat :=
  if c.isDigit then c.toNat - '0'.toNat
  else if c.isLower then c.toNat - 'a'.toNat + 10
  else if c.isUpper then c.toNat - 'A'.toNat + 10
  else 36

def parseRadix (radix limit : Nat) : Nat → List Char → Option Nat
  | value, [] => some value
  | value, c :: rest =>
      if radix ≤ digitValue c then none
      else if limit ≤ value * radix + digitValue c then none
      else parseRadix radix limit (value * radix + digitValue c) rest

/-- An unsigned number below the limit; a sign alone is no number. -/
def fromStrRadix (radix limit : Nat) (text : String) : Option Nat :=
  match text.toList with
  | [] => none
  | ['+'] => none
  | '+' :: digits => parseRadix radix limit 0 digits
  | digits => parseRadix radix limit 0 digits

/-- Four upper-case hexadecimal digits. -/
def hex4 (value : UInt16) : String :=
  let digits := (Nat.toDigits 16 value.toNat).map Char.toUpper
  String.ofList (List.replicate (4 - digits.length) '0' ++ digits)

/-! ## Decimal numbers -/

theorem nat_digits {n : Nat} {c : Char} (member : c ∈ (toString n).toList) : c.isDigit := by
  rw [Nat.toString_eq_repr, Nat.toList_repr] at member
  exact Nat.isDigit_of_mem_toDigits (by decide) (by decide) member

theorem nat_repr_injective {m n : Nat} (same : m.repr = n.repr) : m = n := by
  have digits := congrArg String.toList same
  rw [Nat.toList_repr, Nat.toList_repr] at digits
  rw [← Nat.ofDigitChars_ten_toDigits (n := m), digits, Nat.ofDigitChars_ten_toDigits]

/-- How a signed 32-bit number is printed. -/
def displayI32 (value : Int32) : String := toString value.toInt

/-- The characters of a printed number. -/
def isNumberChar (c : Char) : Bool := c.isDigit || c == '-'

theorem repr_number_chars {n : Nat} {c : Char} (member : c ∈ n.repr.toList) : c.isDigit := by
  rw [Nat.toList_repr] at member
  exact Nat.isDigit_of_mem_toDigits (by decide) (by decide) member

theorem display_number_chars (value : Int32) : ∀ c ∈ (displayI32 value).toList, isNumberChar c := by
  intro c member
  rw [displayI32, Int.toString_eq_repr, Int.repr_eq_if] at member
  split_ifs at member with positive
  · simp [isNumberChar, repr_number_chars member]
  · rw [String.toList_append, List.mem_append] at member
    rcases member with sign | digit
    · have minus : c = '-' := by simpa using sign
      simp [isNumberChar, minus]
    · simp [isNumberChar, repr_number_chars digit]

theorem display_ne_empty (value : Int32) : displayI32 value ≠ "" := by
  rw [displayI32, Int.toString_eq_repr, Int.repr_eq_if]
  split_ifs with positive
  · exact Nat.repr_ne_empty
  · intro empty
    have sizes := congrArg (fun text : String => text.toList.length) empty
    simp at sizes

theorem int_repr_injective {m n : Int} (same : m.repr = n.repr) : m = n := by
  have signed : ∀ a b : Nat, a.repr ≠ "-" ++ b.repr := by
    intro a b equal
    have minus : '-' ∈ a.repr.toList := by
      rw [equal, String.toList_append]
      simp
    exact absurd (repr_number_chars minus) (by decide)
  rw [Int.repr_eq_if, Int.repr_eq_if] at same
  split_ifs at same with positive other other
  · have equal := nat_repr_injective same
    omega
  · exact absurd same (signed _ _)
  · exact absurd same.symm (signed _ _)
  · have equal : (-m).toNat.repr = (-n).toNat.repr := by
      have lists := congrArg String.toList same
      rw [String.toList_append, String.toList_append] at lists
      exact String.toList_injective (List.append_cancel_left lists)
    have numbers := nat_repr_injective equal
    omega

theorem display_injective {left right : Int32} (same : displayI32 left = displayI32 right) :
    left = right := by
  rw [displayI32, displayI32, Int.toString_eq_repr, Int.toString_eq_repr] at same
  exact Int32.toInt_inj.mp (int_repr_injective same)

/-! ## Instance names -/

/-- The names tried for an instance: the name itself, then the name with the
printed counter, which starts at zero and wraps around. -/
def instanceName (name : String) : Nat → String
  | 0 => name
  | tries + 1 => name ++ displayI32 (Int32.ofNat tries)

/-- What an instance name adds to the name. -/
def instanceNumber : Nat → String
  | 0 => ""
  | tries + 1 => displayI32 (Int32.ofNat tries)

theorem instance_name_eq (name : String) (tries : Nat) :
    instanceName name tries = name ++ instanceNumber tries := by
  cases tries with
  | zero => simp [instanceName, instanceNumber]
  | succ tries => rfl

theorem instance_number_chars (tries : Nat) : ∀ c ∈ (instanceNumber tries).toList, isNumberChar c := by
  cases tries with
  | zero => simp [instanceNumber]
  | succ tries => exact display_number_chars _

/-- In the first half of its round the counter is printed as it is. -/
theorem display_nat {n : Nat} (small : n < 2 ^ 31) : displayI32 (Int32.ofNat n) = toString n := by
  have value : (Int32.ofNat n).toInt = n := by
    rw [Int32.toInt_ofNat', Int32.size]
    apply Int.bmod_eq_of_le <;> omega
  rw [displayI32, value]
  rfl

theorem display_ne_nat {n : Nat} (large : 2 ^ 31 ≤ n) (value : Int32) :
    displayI32 value ≠ toString n := by
  intro same
  have equal : value.toInt = n := int_repr_injective same
  have bound := value.toInt_lt
  omega

/-- A name in which no character can belong to a printed number. -/
def Unnumbered (name : String) : Prop := ∀ c ∈ name.toList, isNumberChar c = false

instance Unnumbered.decidable (name : String) : Decidable (Unnumbered name) :=
  inferInstanceAs (Decidable (AllChars (fun c => isNumberChar c = false) name))

theorem split_at_number {left right leftNumber rightNumber : String}
    (same : left ++ leftNumber = right ++ rightNumber)
    (leftName : Unnumbered left) (rightName : Unnumbered right)
    (leftChars : ∀ c ∈ leftNumber.toList, isNumberChar c)
    (rightChars : ∀ c ∈ rightNumber.toList, isNumberChar c) :
    left = right ∧ leftNumber = rightNumber := by
  have lists := congrArg String.toList same
  rw [String.toList_append, String.toList_append] at lists
  have front : ∀ name number : String, Unnumbered name → (∀ c ∈ number.toList, isNumberChar c) →
      (name.toList ++ number.toList).takeWhile (fun c => !isNumberChar c) = name.toList := by
    intro name number unnumbered chars
    rw [List.takeWhile_append_of_pos (by simpa [Unnumbered] using unnumbered)]
    cases digits : number.toList with
    | nil => simp
    | cons c rest => simp [chars c (by simp [digits])]
  have names : left.toList = right.toList := by
    rw [← front left leftNumber leftName leftChars, lists, front right rightNumber rightName rightChars]
  rw [names] at lists
  exact ⟨String.toList_injective names, String.toList_injective (List.append_cancel_left lists)⟩

/-- The counter starts over after one round. -/
theorem instance_name_round (name : String) (tries : Nat) :
    instanceName name (tries % 2 ^ 32 + 1) = instanceName name (tries + 1) := by
  have same : Int32.ofNat (tries % 2 ^ 32) = Int32.ofNat tries := by
    apply Int32.toBitVec_inj.mp
    apply BitVec.eq_of_toNat_eq
    simp only [Int32.toBitVec_ofNat', BitVec.toNat_ofNat, Nat.mod_mod]
  rw [instanceName, instanceName, same]

theorem own_instance_name_injective {name : String} {i j : Nat} (iRound : i ≤ 2 ^ 32)
    (jRound : j ≤ 2 ^ 32) (same : instanceName name i = instanceName name j) : i = j := by
  have numbers : ∀ left right : String, name ++ left = name ++ right → left = right := by
    intro left right equal
    have lists := congrArg String.toList equal
    rw [String.toList_append, String.toList_append] at lists
    exact String.toList_injective (List.append_cancel_left lists)
  have plain : name = name ++ "" := by simp
  cases i with
  | zero =>
      cases j with
      | zero => rfl
      | succ j =>
          rw [instanceName, instanceName] at same
          exact absurd (numbers _ _ (plain.symm.trans same)).symm (display_ne_empty _)
  | succ i =>
      cases j with
      | zero =>
          rw [instanceName, instanceName] at same
          exact absurd (numbers _ _ (same.trans plain)) (display_ne_empty _)
      | succ j =>
          rw [instanceName, instanceName] at same
          have counters := congrArg (fun value : Int32 => value.toBitVec.toNat)
            (display_injective (numbers _ _ same))
          simp only [Int32.toBitVec_ofNat', BitVec.toNat_ofNat] at counters
          omega

theorem instance_names_nodup (name : String) {count : Nat} (round : count ≤ 2 ^ 32 + 1) :
    ((List.range count).map (instanceName name)).Nodup := by
  apply List.Nodup.map_on _ List.nodup_range
  intro i iBelow j jBelow same
  rw [List.mem_range] at iBelow jBelow
  exact own_instance_name_injective (by omega) (by omega) same

/-- Within one round of the counter the tried names of two names differ. -/
theorem instance_name_injective {left right : String} {i j : Nat}
    (leftName : Unnumbered left) (rightName : Unnumbered right) (leftRound : i ≤ 2 ^ 32)
    (rightRound : j ≤ 2 ^ 32) (same : instanceName left i = instanceName right j) :
    left = right ∧ i = j := by
  have parts := split_at_number
    ((instance_name_eq left i).symm.trans (same.trans (instance_name_eq right j))) leftName rightName
    (instance_number_chars i) (instance_number_chars j)
  obtain ⟨rfl, _⟩ := parts
  exact ⟨rfl, own_instance_name_injective leftRound rightRound same⟩

/-- The search for a name that is not taken. The counter has the 32 bits it
has in the source; `none` means that the fuel is used up. -/
def freeName (taken : String → Bool) (name : String) : Nat → String → Int32 → Option String
  | 0, _, _ => none
  | fuel + 1, current, counter =>
      if taken current then freeName taken name fuel (name ++ displayI32 counter) (counter + 1)
      else some current

section Search

variable {taken : String → Bool} {name : String}

theorem free_name_step (fuel tries : Nat) :
    freeName taken name (fuel + 1) (instanceName name tries) (Int32.ofNat tries) =
      if taken (instanceName name tries) then
        freeName taken name fuel (instanceName name (tries + 1)) (Int32.ofNat (tries + 1))
      else some (instanceName name tries) := by
  rw [freeName, instanceName, Int32.ofNat_add]
  rfl

/-- With enough fuel the search returns the first name that is not taken. -/
theorem free_name_eq_some {fuel start count : Nat}
    (before : ∀ i < count, taken (instanceName name (start + i)))
    (free : taken (instanceName name (start + count)) = false) (enough : count < fuel) :
    freeName taken name fuel (instanceName name start) (Int32.ofNat start) =
      some (instanceName name (start + count)) := by
  induction fuel generalizing start count with
  | zero => omega
  | succ fuel ih =>
      rw [free_name_step]
      cases count with
      | zero =>
          rw [Nat.add_zero] at free
          rw [if_neg (by simp [free]), Nat.add_zero]
      | succ count =>
          rw [if_pos (by simpa using before 0 (by omega))]
          have shifted : ∀ i, start + (i + 1) = start + 1 + i := by omega
          rw [shifted] at free
          rw [shifted count]
          apply ih
          · intro i below
            rw [← shifted]
            exact before (i + 1) (by omega)
          · exact free
          · omega

/-- A search that uses up its fuel has found every name on its way taken. -/
theorem taken_of_free_name_none {fuel start : Nat}
    (exhausted : freeName taken name fuel (instanceName name start) (Int32.ofNat start) = none) :
    ∀ i < fuel, taken (instanceName name (start + i)) := by
  induction fuel generalizing start with
  | zero => simp
  | succ fuel ih =>
      rw [free_name_step] at exhausted
      split_ifs at exhausted with here
      intro i below
      cases i with
      | zero => exact here
      | succ i =>
          have later := ih exhausted i (by omega)
          rwa [Nat.add_right_comm] at later

theorem free_name_eq_none (all : ∀ tries, taken (instanceName name tries)) (fuel start : Nat) :
    freeName taken name fuel (instanceName name start) (Int32.ofNat start) = none := by
  induction fuel generalizing start with
  | zero => rfl
  | succ fuel ih => rw [free_name_step, if_pos (all start), ih]

end Search

end Text

end Crashlog
