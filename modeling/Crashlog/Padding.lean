import Mathlib.Data.List.DropRight

/-!
# Padded fields

Texts that are filled up to a width stand side by side in a line. A reader who
knows the widths cuts the line into its fields and takes the blanks off their
ends: that is what was printed, without the blanks at its own ends.
-/

namespace Crashlog.Padding

def alignLeft (width : Nat) (text : List Char) : List Char := text ++ List.replicate (width - text.length) ' '

def alignRight (fill : Char) (width : Nat) (text : List Char) : List Char :=
  List.replicate (width - text.length) fill ++ text

/-- An odd blank goes behind the text. -/
def center (width : Nat) (text : List Char) : List Char :=
  List.replicate ((width - text.length) / 2) ' ' ++ text ++
    List.replicate (width - text.length - (width - text.length) / 2) ' '

def isBlank (c : Char) : Bool := c == ' '

def trim (text : List Char) : List Char := (text.dropWhile isBlank).rdropWhile isBlank

theorem rdrop_while_blanks (text : List Char) (count : Nat) :
    (text ++ List.replicate count ' ').rdropWhile isBlank = text.rdropWhile isBlank := by
  induction count with
  | zero => rw [List.replicate_zero, List.append_nil]
  | succ count ih =>
      rw [List.replicate_succ', ← List.append_assoc, List.rdropWhile_concat_pos _ _ _ (by decide), ih]

theorem trim_blanks (left : Nat) (text : List Char) (right : Nat) :
    trim (List.replicate left ' ' ++ text ++ List.replicate right ' ') = trim text := by
  have blanks (count : Nat) : ∀ c ∈ List.replicate count ' ', isBlank c = true := by
    intro c member
    rw [List.eq_of_mem_replicate member]
    rfl
  rw [trim, List.append_assoc, List.dropWhile_append_of_pos (blanks left), List.dropWhile_append]
  split_ifs with blank
  · rw [List.isEmpty_iff] at blank
    rw [trim, blank, List.dropWhile_eq_nil_iff.mpr (blanks right)]
  · rw [rdrop_while_blanks, trim]

/-- A text is all of it where nothing is blank at its ends. -/
theorem trim_eq_self {text : List Char} (first : ∀ c ∈ text.head?, isBlank c = false)
    (last : ∀ c ∈ text.getLast?, isBlank c = false) : trim text = text := by
  have front : text.dropWhile isBlank = text := by
    cases text with
    | nil => rfl
    | cons c rest => rw [List.dropWhile_cons_of_neg (by simp [first c rfl])]
  rw [trim, front, List.rdropWhile_eq_self_iff]
  intro nonempty
  simp [last _ (List.getLast?_eq_some_getLast nonempty)]

theorem align_left_length {width : Nat} {text : List Char} (fits : text.length ≤ width) :
    (alignLeft width text).length = width := by
  rw [alignLeft, List.length_append, List.length_replicate]
  omega

theorem align_right_length {fill : Char} {width : Nat} {text : List Char} (fits : text.length ≤ width) :
    (alignRight fill width text).length = width := by
  rw [alignRight, List.length_append, List.length_replicate]
  omega

theorem center_length {width : Nat} {text : List Char} (fits : text.length ≤ width) :
    (center width text).length = width := by
  rw [center, List.length_append, List.length_append, List.length_replicate, List.length_replicate]
  omega

theorem trim_align_left (width : Nat) (text : List Char) : trim (alignLeft width text) = trim text :=
  trim_blanks 0 text _

theorem trim_align_right (width : Nat) (text : List Char) : trim (alignRight ' ' width text ++ [' ']) = trim text :=
  trim_blanks _ text 1

theorem trim_center (width : Nat) (text : List Char) : trim (center width text) = trim text := trim_blanks _ text _

/-! ## Lines of fields -/

/-- What a line has in front of all fields, and around each of them. -/
structure Frame where
  opening : List Char
  before : List Char
  after : List Char

namespace Frame

variable (frame : Frame)

def slot (field : List Char) : List Char := frame.before ++ field ++ frame.after

def line (fields : List (List Char)) : List Char := frame.opening ++ fields.flatMap frame.slot

/-- Cuts what follows the opening into fields of the given sizes, as far as it goes. -/
def cut : List Nat → List Char → List (List Char)
  | [], _ => []
  | size :: sizes, line =>
      if line = [] then []
      else
        let field := line.drop frame.before.length
        field.take size :: cut sizes (field.drop (size + frame.after.length))

def fields (sizes : List Nat) (line : List Char) : List (List Char) :=
  (frame.cut sizes (line.drop frame.opening.length)).map trim

variable {frame}

theorem cut_fields {sizes : List Nat} {fields : List (List Char)} (positive : ∀ size ∈ sizes, 0 < size)
    (sized : fields.map List.length <+: sizes) :
    frame.cut sizes (fields.flatMap frame.slot) = fields := by
  induction sizes generalizing fields with
  | nil =>
      rw [List.prefix_nil, List.map_eq_nil_iff] at sized
      subst sized
      rfl
  | cons size sizes ih =>
      cases fields with
      | nil => rw [List.flatMap_nil, cut, if_pos rfl]
      | cons field fields =>
          rw [List.map_cons, List.cons_prefix_cons] at sized
          rw [List.forall_mem_cons] at positive
          obtain ⟨rfl, later⟩ := sized
          have behind : (frame.slot field ++ fields.flatMap frame.slot).drop frame.before.length =
              field ++ (frame.after ++ fields.flatMap frame.slot) := by
            rw [slot, List.append_assoc, List.append_assoc, List.drop_left]
          have nonempty : frame.slot field ++ fields.flatMap frame.slot ≠ [] := by
            intro empty
            have lengths := congrArg List.length behind
            rw [empty, List.drop_nil, List.length_nil, List.length_append] at lengths
            omega
          rw [List.flatMap_cons, cut, if_neg nonempty]
          simp only [behind]
          rw [List.take_left, ← List.drop_drop, List.drop_left, List.drop_left, ih positive.2 later]

/-- Reading a line gives its fields without the blanks around them. -/
theorem fields_line {sizes : List Nat} {fields : List (List Char)} (positive : ∀ size ∈ sizes, 0 < size)
    (sized : fields.map List.length <+: sizes) : frame.fields sizes (frame.line fields) = fields.map trim := by
  rw [Frame.fields, line, List.drop_left, cut_fields positive sized]

end Frame

/-! ## Rules -/

/-- The lengths of the runs of dashes in a line. -/
def runs : List Char → List Nat
  | [] => []
  | c :: rest =>
      if c = '-' then
        match rest.head?, runs rest with
        | some '-', run :: others => (run + 1) :: others
        | _, others => 1 :: others
      else runs rest

theorem runs_plain {plain : List Char} (without : '-' ∉ plain) (rest : List Char) :
    runs (plain ++ rest) = runs rest := by
  induction plain with
  | nil => rfl
  | cons c plain ih =>
      rw [List.mem_cons, not_or] at without
      rw [List.cons_append, runs, if_neg (Ne.symm without.1), ih without.2]

theorem runs_dashes (count : Nat) {c : Char} (other : c ≠ '-') (rest : List Char) :
    runs (List.replicate (count + 1) '-' ++ c :: rest) = (count + 1) :: runs (c :: rest) := by
  induction count with
  | zero =>
      rw [List.replicate_one, List.singleton_append, runs, if_pos rfl]
      simp [other]
  | succ count ih =>
      rw [List.replicate_succ, List.cons_append, runs, if_pos rfl, ih, List.replicate_succ]
      rfl

/-! ## Words -/

/-- Neither a blank nor the end of a line. -/
def isWordChar (c : Char) : Bool := !(c == ' ' || c == '\n')

theorem trim_word {text : List Char} (word : ∀ c ∈ text, isWordChar c = true) : trim text = text := by
  have noBlank : ∀ c ∈ text, isBlank c = false := by
    intro c member
    have plain := word c member
    simp only [isWordChar, Bool.not_eq_true', Bool.or_eq_false_iff] at plain
    exact plain.1
  exact trim_eq_self (fun c first => noBlank c (List.mem_of_head? first))
    fun c last => noBlank c (List.mem_of_getLast? last)

theorem word_append {first second : String} (front : ∀ c ∈ first.toList, isWordChar c = true)
    (back : ∀ c ∈ second.toList, isWordChar c = true) : ∀ c ∈ (first ++ second).toList, isWordChar c = true := by
  intro c member
  rw [String.toList_append, List.mem_append] at member
  exact member.elim (front c) (back c)

theorem word_of_all {text : String} (whole : text.toList.all isWordChar = true) :
    ∀ c ∈ text.toList, isWordChar c = true := List.all_eq_true.mp whole

theorem not_mem_append {c : Char} {first second : String} (front : c ∉ first.toList) (back : c ∉ second.toList) :
    c ∉ (first ++ second).toList := by
  rw [String.toList_append, List.mem_append, not_or]
  exact ⟨front, back⟩

end Crashlog.Padding
