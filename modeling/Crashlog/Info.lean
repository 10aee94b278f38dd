import Crashlog.Checksum
import Crashlog.Decode
import Crashlog.Table
import Crashlog.Unpack

/-!
# The tables of records

The application prints the records of Crash Log files in a table, each under
the number of its region and its own number in the region, and the sections
that hold no Crash Log in another one. The records are read back from what is
printed, up to the first empty line.
-/

namespace Crashlog

open Padding

/-! ## Cells -/

/-- The first three fields are little-endian numbers. -/
def Guid.display (guid : Guid) : String :=
  "-".intercalate ([[3, 2, 1, 0], [5, 4], [7, 6], [8, 9], [10, 11, 12, 13, 14, 15]].map fun positions =>
    String.join (positions.map fun i => Text.hex 2 (guid.bytes.getD i 0).toNat))

example : Guid.display FW_ERROR_RECORD = "81212a96-09ed-4996-9471-8d729c8e69ed" := by decide +kernel

def FirmwareErrorRecord.display (fer : FirmwareErrorRecord) : String :=
  if fer.header.guid = Fer.RECORD_ID_CRASHLOG then "Intel Crash Log Region" else Guid.display fer.header.guid

def CperSectionBody.display : CperSectionBody → String
  | firmwareErrorRecord fer => "Firmware Error Record - " ++ fer.display
  | unknown _ _ => "Unknown"

inductive InfoFormat where
  | compact
  | markdown
  deriving DecidableEq, Repr

namespace Info

section Cells

variable (cm : CollateralManager)

def product (header : Header) : String :=
  match header.product cm with
  | .ok product => product ++ "/" ++ (header.variant cm).getD "all"
  | .error _ => "0x" ++ Text.hex 3 header.productId.toNat

def recordType (header : Header) : String :=
  match header.recordType with
  | .ok recordType => recordType
  | .error _ => "0x" ++ Text.hex 2 header.version.recordType.toNat

def checksum (record : Record) : String :=
  match record.checksum with
  | none => ""
  | some check => if check then "Valid" else "Invalid"

def die (header : Header) : String :=
  match header.die cm with
  | some die => die
  | none => (header.dieId.map fun dieId => toString dieId.toNat).getD ""

/-- The cells behind the numbers are the same in both formats. -/
def fields (record : Record) : List String :=
  [recordType record.header, toString record.header.revision.toNat, product cm record.header,
    toString record.header.recordSize, toString record.header.socketId.toNat, checksum record,
    die cm record.header]

end Cells

/-! ## Pages -/

/-- The records in the order of the loops, with the number of their region and
their own number in it. -/
def numbered (regions : List Region) : List (Nat × Nat × Record) :=
  regions.zipIdx.flatMap fun (region, i) => region.records.zipIdx.map fun (record, j) => (i, j, record)

/-- What the two formats do differently. -/
structure Page where
  opening : List Char
  titles : List String
  alignments : List (Nat × Alignment)
  numbers : Nat → Nat → List String
  between : List Char
  frame : Frame

def compactPage : Page where
  opening := []
  titles := ["  # ", "Record Type", "Rev.", "Product", "Size", "Skt", "Checksum", "Die"]
  alignments := [(0, .center), (2, .right), (4, .right), (5, .right)]
  numbers i j := [toString i ++ "-" ++ toString j]
  between := "\n".toList
  frame := Table.plainFrame

def markdownPage : Page where
  opening := "### Crash Log Records\n\n".toList
  titles := ["Region", "Record", "Record Type", "Revision", "Product", "Size", "Socket", "Checksum", "Die"]
  alignments := []
  numbers i j := [toString i, toString j]
  between := "\n### Extra CPER Sections\n\n".toList
  frame := Table.markdownFrame

def sectionRow (item : CperSectionBody × Nat) : Table.Row where
  cells := [toString item.2, Guid.display item.1.guid, toString item.1.len, item.1.display]

namespace Page

variable (page : Page)

def row (cm : CollateralManager) (item : Nat × Nat × Record) : Table.Row where
  cells := page.numbers item.1 item.2.1 ++ fields cm item.2.2

/-- The table of the records, with what is printed in front of it. -/
def records (cm : CollateralManager) (regions : List Region) : List Char :=
  page.opening ++
    Table.print ((Table.build page.titles page.alignments ((numbered regions).map (page.row cm))).lines page.frame)

def extraSections (sections : List CperSectionBody) : List Char :=
  if sections.isEmpty then []
  else page.between ++ Table.print ((Table.build ["#", "CPER Section GUID", "Length", "Description"] []
    (sections.zipIdx.map sectionRow)).lines page.frame)

end Page

section Command

variable {State : Type} (files : Files State) (state : State) (cm : CollateralManager)

/-- Both formats read the file and print the two tables. -/
def tables (page : Page) (input : PathBuf) : Except Error (List Char) :=
  match files.read state input with
  | .error message => .error (.ioError message)
  | .ok bytes => (CrashLog.fromSlice bytes).map fun crashlog =>
      page.records cm crashlog.regions ++ page.extraSections crashlog.metadata.extraCperSections

def compact (input : PathBuf) : Except Error (List Char) := tables files state cm compactPage input

def markdown (input : PathBuf) : Except Error (List Char) := tables files state cm markdownPage input

/-- What is printed in front of the tables of a file. -/
def heading (several : Bool) (inputFile : PathBuf) : InfoFormat → List Char
  | .compact => if several then ("\n" ++ inputFile ++ ":\n\n").toList else []
  | .markdown => ("\n## `" ++ inputFile ++ "`\n\n").toList

variable (display : Error → String)

/-- Errors are displayed in one format and only logged in the other one. -/
def infoFile (several : Bool) (inputFile : PathBuf) (format : InfoFormat) : List Char :=
  heading several inputFile format ++
    match format with
    | .compact =>
        match compact files state cm inputFile with
        | .ok printed => printed
        | .error _ => []
    | .markdown =>
        match markdown files state cm inputFile with
        | .ok printed => printed
        | .error error => ("\n```\n" ++ display error ++ "\n```\n").toList

def info (inputFiles : List PathBuf) (format : InfoFormat) : List Char :=
  inputFiles.flatMap fun inputFile =>
    infoFile files state cm display (decide (inputFiles.length > 1)) inputFile format

end Command

end Info

def InfoFormat.page : InfoFormat → Info.Page
  | .compact => Info.compactPage
  | .markdown => Info.markdownPage

/-! ## Reading the records -/

namespace Info

def readNumber (digits : List Char) : Nat := Nat.ofDigitChars 10 digits 0

/-- The numbers of a row and its other cells. -/
def readRow : InfoFormat → List (List Char) → Option (Nat × Nat × List (List Char))
  | .compact, numbers :: fields =>
      match numbers.splitOn '-' with
      | [i, j] => some (readNumber i, readNumber j, fields)
      | _ => none
  | .markdown, i :: j :: fields => some (readNumber i, readNumber j, fields)
  | _, _ => none

/-- What a reader makes of the first table of a page. -/
def readRecords (format : InfoFormat) (output : List Char) :
    Option (List (Option (Nat × Nat × List (List Char)))) :=
  (Table.read format.page.frame (Table.leading (output.drop format.page.opening.length))).map fun table =>
    table.2.map (readRow format)

theorem read_number (n : Nat) : readNumber (toString n).toList = n := by
  rw [readNumber, Nat.toString_eq_repr, Nat.toList_repr, Nat.ofDigitChars_ten_toDigits]

theorem word_number (n : Nat) : ∀ c ∈ (toString n).toList, isWordChar c = true := by
  intro c member
  have digit := Text.nat_digits member
  by_contra blank
  simp only [isWordChar, Bool.not_eq_true', Bool.not_eq_false, Bool.or_eq_true, beq_iff_eq] at blank
  rcases blank with rfl | rfl
  · exact absurd digit (by decide)
  · exact absurd digit (by decide)

theorem trimmed_number (n : Nat) : Table.trimmed (toString n) = (toString n).toList := trim_word (word_number n)

theorem read_cells (format : InfoFormat) (i j : Nat) (fields : List String) :
    readRow format ((format.page.numbers i j ++ fields).map Table.trimmed) =
      some (i, j, fields.map Table.trimmed) := by
  cases format with
  | compact =>
      have dash : ∀ c ∈ "-".toList, isWordChar c = true := word_of_all (by decide)
      have word := word_append (word_append (word_number i) dash) (word_number j)
      have undashed (n : Nat) : '-' ∉ (toString n).toList := fun member =>
        absurd (Text.nat_digits member) (by decide)
      have pieces : (Table.trimmed (toString i ++ "-" ++ toString j)).splitOn '-' =
          [(toString i).toList, (toString j).toList] := by
        rw [Table.trimmed, trim_word word, String.toList_append, String.toList_append, List.append_assoc]
        exact (List.splitOn_append_cons_self_of_not_mem (undashed i) _).trans
          (congrArg _ (List.splitOn_eq_singleton (undashed j)))
      have row : (InfoFormat.compact.page.numbers i j ++ fields).map Table.trimmed =
          Table.trimmed (toString i ++ "-" ++ toString j) :: fields.map Table.trimmed := rfl
      rw [row, readRow, pieces]
      simp only [read_number]
  | markdown =>
      have row : (InfoFormat.markdown.page.numbers i j ++ fields).map Table.trimmed =
          Table.trimmed (toString i) :: Table.trimmed (toString j) :: fields.map Table.trimmed := rfl
      rw [row, readRow, trimmed_number, trimmed_number, read_number, read_number]

/-- The names in the product information are texts of one line. -/
structure OneLined (info : TargetInfo) : Prop where
  product : '\n' ∉ info.product.toList
  variant : '\n' ∉ info.variant.toList
  dies : ∀ dieId name, info.dieId dieId = some name → '\n' ∉ name.toList

theorem not_mem_number (n : Nat) : '\n' ∉ (toString n).toList := fun newline =>
  absurd (word_number n _ newline) (by decide)

theorem not_mem_hex (width value : Nat) : '\n' ∉ ("0x" ++ Text.hex width value).toList := by
  have stem : '\n' ∉ "0x".toList := by decide
  exact not_mem_append stem (Text.not_mem_hex (by decide) width value)

section Cells

variable {cm : CollateralManager} (lined : ∀ productId info, cm.targetInfo productId = some info → OneLined info)
include lined

theorem not_mem_product (header : Header) : '\n' ∉ (product cm header).toList := by
  rw [product]
  cases known : cm.targetInfo header.productId with
  | none =>
      have unknown : header.product cm = .error (.invalidProductId header.productId) := by
        rw [Header.product, known]
        rfl
      rw [unknown]
      exact not_mem_hex _ _
  | some info =>
      have named : header.product cm = .ok info.product := by
        rw [Header.product, known]
        rfl
      have variant : header.variant cm = some info.variant := by rw [Header.variant, known, Option.map_some]
      have slash : '\n' ∉ "/".toList := by decide
      rw [named, variant]
      exact not_mem_append (not_mem_append (lined _ _ known).product slash) (lined _ _ known).variant

theorem not_mem_die (header : Header) : '\n' ∉ (die cm header).toList := by
  rw [die]
  cases known : header.die cm with
  | none =>
      cases header.dieId with
      | none => exact List.not_mem_nil
      | some dieId => exact not_mem_number _
  | some name =>
      obtain ⟨dieId, _, named⟩ := Option.bind_eq_some_iff.mp known
      obtain ⟨info, found, held⟩ := Option.bind_eq_some_iff.mp named
      exact (lined _ _ found).dies dieId name held

theorem fields_one_lined (record : Record) : ∀ cell ∈ fields cm record, '\n' ∉ cell.toList := by
  have types : ∀ name ∈ ["PMC", "PMC_FW_Trace", "Punit", "PCORE", "ECORE", "UNCORE", "PMC_TRACE", "TCSS", "PMC_RST",
      "PCODE", "CRASHLOG_AGENT", "BOX", "MCA", "record"], '\n' ∉ name.toList := by decide
  have type : '\n' ∉ (recordType record.header).toList := by
    have named := types _ record.record_type_cases
    rw [recordType]
    cases known : record.header.recordType with
    | ok name =>
        rw [known] at named
        exact named
    | error error => exact not_mem_hex _ _
  have check : '\n' ∉ (checksum record).toList := by
    rw [checksum]
    rcases record.checksum with _ | _ | _ <;> decide
  intro cell member
  simp only [fields, List.mem_cons, List.not_mem_nil, or_false] at member
  rcases member with rfl | rfl | rfl | rfl | rfl | rfl | rfl
  · exact type
  · exact not_mem_number _
  · exact not_mem_product lined _
  · exact not_mem_number _
  · exact not_mem_number _
  · exact check
  · exact not_mem_die lined _

/-- The records are read back from their table, each with the number of its
region and its own number, whatever is printed behind an empty line. -/
theorem read_records (format : InfoFormat) (regions : List Region) {back : List Char}
    (apart : ∀ c ∈ back.head?, c = '\n') :
    readRecords format (format.page.records cm regions ++ back) =
      some ((numbered regions).map fun item =>
        some (item.1, item.2.1, (fields cm item.2.2).map Table.trimmed)) := by
  have clear : Table.Clear format.page.frame := by
    cases format
    · exact Table.clear_plain
    · exact Table.clear_markdown
  have rows : Table.OneLined format.page.titles ((numbered regions).map (format.page.row cm)) := by
    refine ⟨?_, fun row member cell inside => ?_⟩
    · cases format <;> decide
    · obtain ⟨item, _, rfl⟩ := List.mem_map.mp member
      rw [Page.row, List.mem_append] at inside
      refine inside.elim (fun number => ?_) (fields_one_lined lined item.2.2 cell)
      cases format with
      | compact =>
          have dash : '\n' ∉ "-".toList := by decide
          rw [List.mem_singleton.mp number]
          exact not_mem_append (not_mem_append (not_mem_number _) dash) (not_mem_number _)
      | markdown =>
          rcases List.mem_cons.mp number with rfl | last
          · exact not_mem_number _
          · rw [List.mem_singleton.mp last]
            exact not_mem_number _
  have columns : format.page.titles ≠ [] := by cases format <;> exact List.cons_ne_nil _ _
  have filled : ∀ row ∈ (numbered regions).map (format.page.row cm), row.cells ≠ [] := by
    intro row member
    obtain ⟨item, _, rfl⟩ := List.mem_map.mp member
    cases format <;> exact List.cons_ne_nil _ _
  have whole (item : Nat × Nat × Record) :
      (format.page.row cm item).cells.take format.page.titles.length =
        format.page.numbers item.1 item.2.1 ++ fields cm item.2.2 := by
    cases format <;> rfl
  rw [readRecords, Page.records, List.append_assoc, List.drop_left,
    Table.leading_build clear rows columns filled _ apart, Table.build_back clear rows, Option.map_some,
    Option.some_inj, List.map_map, List.map_map]
  refine List.map_congr_left fun item _ => ?_
  rw [Function.comp_apply, Function.comp_apply, whole, read_cells]

end Cells

/-! ## What follows a table -/

theorem head_append {front back : List Char} (first : ∀ c ∈ front.head?, c = '\n')
    (second : ∀ c ∈ back.head?, c = '\n') : ∀ c ∈ (front ++ back).head?, c = '\n' := by
  cases front with
  | nil => exact second
  | cons c rest => exact first

/-- An empty line is printed in front of the table of the other sections. -/
theorem head_extra_sections (format : InfoFormat) (sections : List CperSectionBody) :
    ∀ c ∈ (format.page.extraSections sections).head?, c = '\n' := by
  intro c first
  rw [Page.extraSections] at first
  split_ifs at first
  · cases first
  · cases format <;> exact (Option.some.inj first).symm

section Heads

variable {State : Type} {files : Files State} {state : State} {cm : CollateralManager} {display : Error → String}

theorem head_info_file (inputFile : PathBuf) (format : InfoFormat) :
    ∀ c ∈ (infoFile files state cm display true inputFile format).head?, c = '\n' := by
  intro c first
  cases format with
  | compact =>
      rw [infoFile, heading, if_pos rfl, String.append_assoc, String.toList_append] at first
      exact (Option.some.inj first).symm
  | markdown =>
      rw [infoFile, heading, String.append_assoc, String.toList_append] at first
      exact (Option.some.inj first).symm

/-- Where several files are shown, there is one in front of each. -/
theorem head_info_files (inputFiles : List PathBuf) (format : InfoFormat) :
    ∀ c ∈ (inputFiles.flatMap fun inputFile =>
      infoFile files state cm display true inputFile format).head?, c = '\n' := by
  induction inputFiles with
  | nil =>
      intro c first
      cases first
  | cons inputFile rest ih =>
      rw [List.flatMap_cons]
      exact head_append (head_info_file inputFile format) ih

end Heads

end Info

end Crashlog
