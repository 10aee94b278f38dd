import Crashlog.Padding

/-!
# Tables

A table widens its columns to the longest cell as rows come in. Widths are
counted in bytes and padding in characters, so a cell with wide characters
gets too much room and never too little: the printed table is read back, with
the sizes of the columns taken from the rule under the titles.
-/

namespace Crashlog

inductive Alignment where
  | left
  | right
  | center
  deriving DecidableEq, Repr

structure Column where
  title : String
  width : Nat
  alignment : Alignment := .left

namespace Column

def fromTitle (title : String) : Column := { title, width := title.utf8ByteSize }

def expand (column : Column) (width : Nat) : Column :=
  if column.width < width then { column with width } else column

end Column

structure Table.Row where
  cells : List String

structure Table where
  columns : List Column := []
  rows : List Table.Row := []

namespace Table

open Padding

def fromTitles (titles : List String) : Table := { columns := titles.map Column.fromTitle }

/-- Cells behind the last column widen nothing. -/
def widen : List Column → List String → List Column
  | column :: columns, cell :: cells => column.expand cell.utf8ByteSize :: widen columns cells
  | columns, _ => columns

def appendRow (table : Table) (row : Row) : Table where
  columns := widen table.columns row.cells
  rows := table.rows ++ [row]

def align (table : Table) (index : Nat) (alignment : Alignment) : Table :=
  { table with columns := table.columns.modify index fun column => { column with alignment } }

def titleField (column : Column) : List Char := alignLeft (column.width + 2) column.title.toList

def ruleField (column : Column) : List Char := alignRight '-' (column.width + 2) [' ']

def field (column : Column) (cell : String) : List Char :=
  let width := column.width + 2
  match column.alignment with
  | .left => alignLeft width cell.toList
  | .right => alignRight ' ' (width - 1) cell.toList ++ [' ']
  | .center => center width cell.toList

/-- Cells behind the last column are not printed. -/
def lines (frame : Frame) (table : Table) : List (List Char) :=
  frame.line (table.columns.map titleField) :: frame.line (table.columns.map ruleField) ::
    table.rows.map fun row => frame.line (List.zipWith field table.columns row.cells)

def print (lines : List (List Char)) : List Char := lines.flatMap (· ++ ['\n'])

def plainFrame : Frame := { opening := [], before := [], after := [] }

def markdownFrame : Frame := { opening := ['|'], before := [' '], after := ['|'] }

def render (table : Table) : List Char := print (table.lines plainFrame)

def renderMarkdown (table : Table) : List Char := print (table.lines markdownFrame)

/-! ## Reading a table -/

/-- What a reader makes of a printed table: the titles and the cells of each row. -/
def read (frame : Frame) (output : List Char) : Option (List (List Char) × List (List (List Char))) :=
  match output.splitOn '\n' with
  | titles :: rule :: rows =>
      let sizes := (runs rule).map (· + 1)
      some (frame.fields sizes titles, rows.dropLast.map (frame.fields sizes))
  | _ => none

def trimmed (text : String) : List Char := trim text.toList

/-! ## Cells fit into their columns -/

theorem length_le_size (text : String) : text.toList.length ≤ text.utf8ByteSize := by
  have all (chars : List Char) : chars.length ≤ (String.ofList chars).utf8ByteSize := by
    induction chars with
    | nil => exact Nat.zero_le _
    | cons c rest ih =>
        have split : String.ofList (c :: rest) = String.singleton c ++ String.ofList rest := by
          rw [← String.toList_inj]
          simp
        have one := c.utf8Size_pos
        rw [split, String.utf8ByteSize_append, String.utf8ByteSize_singleton, List.length_cons]
        omega
  have whole := all text.toList
  rwa [String.ofList_toList] at whole

/-- Titles and cells are no longer than their columns are wide. -/
structure Fits (table : Table) : Prop where
  titles : ∀ column ∈ table.columns, column.title.utf8ByteSize ≤ column.width
  cells : ∀ row ∈ table.rows, ∀ pair ∈ table.columns.zip row.cells, pair.2.utf8ByteSize ≤ pair.1.width

theorem fits_from_titles (titles : List String) : (fromTitles titles).Fits where
  titles column member := by
    obtain ⟨title, _, rfl⟩ := List.mem_map.mp member
    exact Nat.le_refl _
  cells _ member := absurd member List.not_mem_nil

theorem le_expand (column : Column) (width : Nat) : column.width ≤ (column.expand width).width := by
  rw [Column.expand]
  split_ifs with wider
  · exact wider.le
  · exact Nat.le_refl _

theorem expand_le (column : Column) (width : Nat) : width ≤ (column.expand width).width := by
  rw [Column.expand]
  split_ifs with wider
  · exact Nat.le_refl _
  · exact Nat.not_lt.mp wider

theorem expand_title (column : Column) (width : Nat) : (column.expand width).title = column.title := by
  rw [Column.expand]
  split_ifs <;> rfl

theorem titles_widen (columns : List Column) (cells : List String) :
    (widen columns cells).map Column.title = columns.map Column.title := by
  induction columns generalizing cells with
  | nil => cases cells <;> rfl
  | cons column columns ih =>
      cases cells with
      | nil => rfl
      | cons cell cells => rw [widen, List.map_cons, List.map_cons, ih, expand_title]

/-- No column gets narrower. -/
theorem zip_widen {columns : List Column} {cells other : List String} {pair : Column × String}
    (member : pair ∈ (widen columns cells).zip other) :
    ∃ column, (column, pair.2) ∈ columns.zip other ∧ column.width ≤ pair.1.width := by
  induction columns generalizing cells other with
  | nil =>
      cases cells <;> rw [widen, List.zip_nil_left] at member <;> cases member
  | cons column columns ih =>
      cases other with
      | nil =>
          rw [List.zip_nil_right] at member
          cases member
      | cons first rest =>
          cases cells with
          | nil => exact ⟨pair.1, member, Nat.le_refl _⟩
          | cons cell cells =>
              rw [widen, List.zip_cons_cons, List.mem_cons] at member
              rcases member with rfl | later
              · exact ⟨column, List.mem_cons_self, le_expand column _⟩
              · obtain ⟨narrow, inside, wider⟩ := ih later
                exact ⟨narrow, List.mem_cons_of_mem _ inside, wider⟩

/-- The new row fits. -/
theorem zip_widen_self {columns : List Column} {cells : List String} {pair : Column × String}
    (member : pair ∈ (widen columns cells).zip cells) : pair.2.utf8ByteSize ≤ pair.1.width := by
  induction columns generalizing cells with
  | nil =>
      cases cells <;> rw [widen, List.zip_nil_left] at member <;> cases member
  | cons column columns ih =>
      cases cells with
      | nil =>
          rw [List.zip_nil_right] at member
          cases member
      | cons cell cells =>
          rw [widen, List.zip_cons_cons, List.mem_cons] at member
          rcases member with rfl | later
          · exact expand_le column _
          · exact ih later

theorem mem_widen {columns : List Column} {cells : List String} {column : Column}
    (member : column ∈ widen columns cells) :
    ∃ narrow ∈ columns, column.title = narrow.title ∧ narrow.width ≤ column.width := by
  induction columns generalizing cells with
  | nil =>
      cases cells <;> rw [widen] at member <;> cases member
  | cons first columns ih =>
      cases cells with
      | nil => exact ⟨column, member, rfl, Nat.le_refl _⟩
      | cons cell cells =>
          rw [widen, List.mem_cons] at member
          rcases member with rfl | later
          · exact ⟨first, List.mem_cons_self, expand_title first _, le_expand first _⟩
          · obtain ⟨narrow, inside, same, wider⟩ := ih later
            exact ⟨narrow, List.mem_cons_of_mem _ inside, same, wider⟩

theorem Fits.append_row {table : Table} (fits : table.Fits) (row : Row) : (table.appendRow row).Fits where
  titles column member := by
    obtain ⟨narrow, inside, same, wider⟩ := mem_widen member
    rw [same]
    exact (fits.titles narrow inside).trans wider
  cells other member pair inside := by
    rw [appendRow, List.mem_append, List.mem_singleton] at member
    rcases member with earlier | rfl
    · obtain ⟨narrow, before, wider⟩ := zip_widen inside
      exact (fits.cells other earlier _ before).trans wider
    · exact zip_widen_self inside

/-- The title and the width of a column. -/
def Column.shape (column : Column) : String × Nat := (column.title, column.width)

theorem shapes_align (columns : List Column) (index : Nat) (alignment : Alignment) :
    (columns.modify index fun column => { column with alignment }).map Column.shape = columns.map Column.shape := by
  induction columns generalizing index with
  | nil => rw [List.modify_nil]
  | cons column columns ih =>
      cases index with
      | zero => rfl
      | succ index => rw [List.modify_succ_cons, List.map_cons, List.map_cons, ih]

theorem Fits.align {table : Table} (fits : table.Fits) (index : Nat) (alignment : Alignment) :
    (table.align index alignment).Fits where
  titles column member := by
    have inside := List.mem_map_of_mem (f := Column.shape) member
    rw [Table.align, shapes_align] at inside
    obtain ⟨original, listed, same⟩ := List.mem_map.mp inside
    rw [Column.shape, Column.shape, Prod.mk.injEq] at same
    rw [← same.1, ← same.2]
    exact fits.titles original listed
  cells row member pair inside := by
    have shaped := List.mem_map_of_mem (f := Prod.map Column.shape id) inside
    rw [← List.zip_map_left, Table.align, shapes_align, List.zip_map_left] at shaped
    obtain ⟨original, listed, same⟩ := List.mem_map.mp shaped
    rw [Prod.map, Prod.map, Column.shape, Column.shape, Prod.mk.injEq, Prod.mk.injEq] at same
    rw [← same.1.2]
    have narrow := fits.cells row member original listed
    rwa [show original.2 = pair.2 from same.2] at narrow

/-- The table that a command builds: titles, then alignments, then rows. -/
def build (titles : List String) (alignments : List (Nat × Alignment)) (rows : List Row) : Table :=
  rows.foldl appendRow (alignments.foldl (fun table item => table.align item.1 item.2) (fromTitles titles))

theorem fits_build (titles : List String) (alignments : List (Nat × Alignment)) (rows : List Row) :
    (build titles alignments rows).Fits := by
  have aligned : (alignments.foldl (fun table item => table.align item.1 item.2) (fromTitles titles)).Fits :=
    List.foldlRecOn alignments _ (fits_from_titles titles) fun _ fits item _ => fits.align item.1 item.2
  exact List.foldlRecOn rows _ aligned fun _ fits row _ => fits.append_row row

theorem titles_build (titles : List String) (alignments : List (Nat × Alignment)) (rows : List Row) :
    (build titles alignments rows).columns.map Column.title = titles := by
  have aligned : (alignments.foldl (fun table item => table.align item.1 item.2)
      (fromTitles titles)).columns.map Column.title = titles := by
    refine List.foldlRecOn (motive := fun table : Table => table.columns.map Column.title = titles) alignments _ ?_ ?_
    · rw [fromTitles, List.map_map]
      exact List.map_id titles
    · intro table same item _
      have shapes := congrArg (List.map Prod.fst) (shapes_align table.columns item.1 item.2)
      rw [List.map_map, List.map_map] at shapes
      exact shapes.trans same
  refine List.foldlRecOn (motive := fun table : Table => table.columns.map Column.title = titles) rows _ aligned ?_
  intro table same row _
  exact (titles_widen table.columns row.cells).trans same

theorem rows_build (titles : List String) (alignments : List (Nat × Alignment)) (rows : List Row) :
    (build titles alignments rows).rows = rows := by
  have aligned : (alignments.foldl (fun table item => table.align item.1 item.2) (fromTitles titles)).rows = [] :=
    List.foldlRecOn (motive := fun table : Table => table.rows = []) alignments _ rfl fun _ same _ _ => same
  have appended (table : Table) (rows : List Row) : (rows.foldl appendRow table).rows = table.rows ++ rows := by
    induction rows generalizing table with
    | nil => rw [List.foldl_nil, List.append_nil]
    | cons row rest ih => rw [List.foldl_cons, ih, appendRow, List.append_assoc, List.singleton_append]
  rw [build, appended, aligned, List.nil_append]

/-! ## Sizes of fields -/

theorem title_field_length {column : Column} (fits : column.title.utf8ByteSize ≤ column.width) :
    (titleField column).length = column.width + 2 := by
  have short := length_le_size column.title
  exact align_left_length (by omega)

theorem field_length {column : Column} {cell : String} (fits : cell.utf8ByteSize ≤ column.width) :
    (field column cell).length = column.width + 2 := by
  have short := length_le_size cell
  rw [field]
  split
  · exact align_left_length (by omega)
  · rw [List.length_append, align_right_length (by omega), List.length_singleton]
    omega
  · exact center_length (by omega)

theorem trim_field (column : Column) (cell : String) : trim (field column cell) = trimmed cell := by
  rw [field]
  split
  · exact trim_align_left _ _
  · exact trim_align_right _ _
  · exact trim_center _ _

/-- What is printed around fields is neither a dash nor the end of a line. -/
structure Clear (frame : Frame) : Prop where
  opening : '-' ∉ frame.opening ∧ '\n' ∉ frame.opening
  before : '-' ∉ frame.before ∧ '\n' ∉ frame.before
  after : '-' ∉ frame.after ∧ '\n' ∉ frame.after

variable {frame : Frame}

theorem runs_rule (clear : Clear frame) (columns : List Column) :
    runs (frame.line (columns.map ruleField)) = columns.map fun column => column.width + 1 := by
  rw [Frame.line, runs_plain clear.opening.1]
  induction columns with
  | nil => rfl
  | cons column columns ih =>
      have rule : ruleField column = List.replicate (column.width + 1) '-' ++ [' '] := rfl
      have slot : frame.slot (ruleField column) ++ (columns.map ruleField).flatMap frame.slot =
          frame.before ++ (List.replicate (column.width + 1) '-' ++
            ' ' :: (frame.after ++ (columns.map ruleField).flatMap frame.slot)) := by
        simp only [Frame.slot, rule, List.append_assoc, List.cons_append, List.nil_append]
      have blank (rest : List Char) : runs (' ' :: rest) = runs rest := @runs_plain [' '] (by decide) rest
      rw [List.map_cons, List.flatMap_cons, slot, runs_plain clear.before.1, runs_dashes _ (by decide), blank,
        runs_plain clear.after.1, ih, List.map_cons]

theorem not_mem_line (clear : Clear frame) {fields : List (List Char)} (whole : ∀ field ∈ fields, '\n' ∉ field) :
    '\n' ∉ frame.line fields := by
  rw [Frame.line, List.mem_append, List.mem_flatMap]
  rintro (opening | ⟨field, member, inside⟩)
  · exact clear.opening.2 opening
  · rw [Frame.slot, List.mem_append, List.mem_append] at inside
    rcases inside with (before | inner) | after
    · exact clear.before.2 before
    · exact whole field member inner
    · exact clear.after.2 after

theorem split_print_append {lines : List (List Char)} (whole : ∀ line ∈ lines, '\n' ∉ line) (back : List Char) :
    (print lines ++ back).splitOn '\n' = lines ++ back.splitOn '\n' := by
  induction lines with
  | nil => rfl
  | cons line lines ih =>
      rw [List.forall_mem_cons] at whole
      rw [print, List.flatMap_cons, List.append_assoc, List.append_assoc, List.singleton_append,
        List.splitOn_append_cons_self_of_not_mem whole.1, ← print, ih whole.2, List.cons_append]

theorem split_print {lines : List (List Char)} (whole : ∀ line ∈ lines, '\n' ∉ line) :
    (print lines).splitOn '\n' = lines ++ [[]] := by
  rw [← List.append_nil (print lines), split_print_append whole]
  rfl

theorem not_mem_title_field {column : Column} (whole : '\n' ∉ column.title.toList) : '\n' ∉ titleField column := by
  rw [titleField, alignLeft, List.mem_append, not_or]
  exact ⟨whole, fun blank => absurd (List.eq_of_mem_replicate blank) (by decide)⟩

theorem not_mem_field {column : Column} {cell : String} (whole : '\n' ∉ cell.toList) : '\n' ∉ field column cell := by
  have blanks (count : Nat) : '\n' ∉ List.replicate count ' ' := fun blank =>
    absurd (List.eq_of_mem_replicate blank) (by decide)
  rw [field]
  split
  · simp [alignLeft, whole, blanks]
  · simp [alignRight, whole, blanks]
  · simp [center, whole, blanks]

theorem not_mem_rule_field (column : Column) : '\n' ∉ ruleField column := by
  rw [ruleField, alignRight, List.mem_append, not_or]
  exact ⟨fun dash => absurd (List.eq_of_mem_replicate dash) (by decide), by decide⟩

/-- Titles and cells are texts of one line. -/
structure OneLined (titles : List String) (rows : List Row) : Prop where
  titles : ∀ title ∈ titles, '\n' ∉ title.toList
  cells : ∀ row ∈ rows, ∀ cell ∈ row.cells, '\n' ∉ cell.toList

theorem lines_whole (clear : Clear frame) {table : Table}
    (lined : OneLined (table.columns.map Column.title) table.rows) : ∀ line ∈ table.lines frame, '\n' ∉ line := by
  intro line member
  rw [lines, List.mem_cons, List.mem_cons, List.mem_map] at member
  rcases member with rfl | rfl | ⟨row, listed, rfl⟩
  · refine not_mem_line clear fun field inside => ?_
    obtain ⟨column, among, rfl⟩ := List.mem_map.mp inside
    exact not_mem_title_field (lined.titles _ (List.mem_map_of_mem among))
  · refine not_mem_line clear fun field inside => ?_
    obtain ⟨column, _, rfl⟩ := List.mem_map.mp inside
    exact not_mem_rule_field column
  · refine not_mem_line clear fun field inside => ?_
    rw [← List.map_uncurry_zip_eq_zipWith] at inside
    obtain ⟨pair, among, rfl⟩ := List.mem_map.mp inside
    exact not_mem_field (lined.cells row listed _ (List.of_mem_zip among).2)

theorem read_row {table : Table} (fits : table.Fits) {row : Row} (member : row ∈ table.rows) :
    frame.fields (table.columns.map fun column => column.width + 2)
      (frame.line (List.zipWith field table.columns row.cells)) =
        (row.cells.take table.columns.length).map trimmed := by
  have sized (columns : List Column) (cells : List String)
      (short : ∀ pair ∈ columns.zip cells, pair.2.utf8ByteSize ≤ pair.1.width) :
      (List.zipWith field columns cells).map List.length <+: columns.map fun column => column.width + 2 := by
    induction columns generalizing cells with
    | nil => exact List.nil_prefix
    | cons column columns ih =>
        cases cells with
        | nil => exact List.nil_prefix
        | cons cell cells =>
            rw [List.zip_cons_cons, List.forall_mem_cons] at short
            rw [List.zipWith_cons_cons, List.map_cons, List.map_cons, field_length short.1, List.cons_prefix_cons]
            exact ⟨rfl, ih cells short.2⟩
  have trimmedCells (columns : List Column) (cells : List String) :
      (List.zipWith field columns cells).map trim = (cells.take columns.length).map trimmed := by
    induction columns generalizing cells with
    | nil => rfl
    | cons column columns ih =>
        cases cells with
        | nil => rfl
        | cons cell cells =>
            rw [List.zipWith_cons_cons, List.map_cons, trim_field, ih, List.length_cons, List.take_succ_cons,
              List.map_cons]
  rw [Frame.fields_line ?_ (sized _ _ (fits.cells row member)), trimmedCells]
  intro size inside
  obtain ⟨column, _, rfl⟩ := List.mem_map.mp inside
  exact Nat.succ_pos _

theorem read_lines (clear : Clear frame) {table : Table} (fits : table.Fits)
    (lined : OneLined (table.columns.map Column.title) table.rows) :
    read frame (print (table.lines frame)) =
      some (table.columns.map fun column => trimmed column.title,
        table.rows.map fun row => (row.cells.take table.columns.length).map trimmed) := by
  have sizes : ((table.columns.map fun column => column.width + 1).map (· + 1)) =
      table.columns.map fun column => column.width + 2 := by
    rw [List.map_map]
    rfl
  have titles : frame.fields (table.columns.map fun column => column.width + 2)
      (frame.line (table.columns.map titleField)) = table.columns.map fun column => trimmed column.title := by
    have lengths : (table.columns.map titleField).map List.length =
        table.columns.map fun column => column.width + 2 := by
      rw [List.map_map]
      exact List.map_congr_left fun column member => title_field_length (fits.titles column member)
    rw [Frame.fields_line ?_ (lengths ▸ List.prefix_rfl), List.map_map]
    · exact List.map_congr_left fun column _ => trim_align_left _ _
    · intro size inside
      obtain ⟨column, _, rfl⟩ := List.mem_map.mp inside
      exact Nat.succ_pos _
  have rows : (table.rows.map fun row => frame.line (List.zipWith field table.columns row.cells)).map
      (frame.fields (table.columns.map fun column => column.width + 2)) =
        table.rows.map fun row => (row.cells.take table.columns.length).map trimmed := by
    rw [List.map_map]
    exact List.map_congr_left fun row member => read_row fits member
  rw [read, split_print (lines_whole clear lined), lines, List.cons_append, List.cons_append]
  simp only [runs_rule clear, sizes, List.dropLast_concat, titles, rows]

/-- What is printed up to the first empty line. -/
def leading (output : List Char) : List Char := print ((output.splitOn '\n').takeWhile fun line => !line.isEmpty)

/-- No line of a table is empty that has a column, and a cell in each row. -/
theorem lines_filled {table : Table} (fits : table.Fits) (columns : table.columns ≠ [])
    (filled : ∀ row ∈ table.rows, row.cells ≠ []) : ∀ line ∈ table.lines frame, line ≠ [] := by
  have line_ne_nil {field : List Char} (rest : List (List Char)) (long : 0 < field.length) :
      frame.line (field :: rest) ≠ [] := by
    rw [← List.length_pos_iff, Frame.line, List.flatMap_cons, Frame.slot]
    simp only [List.length_append]
    omega
  obtain ⟨column, others, split⟩ := List.exists_cons_of_ne_nil columns
  have listed : column ∈ table.columns := split ▸ List.mem_cons_self
  intro line member
  rw [lines, List.mem_cons, List.mem_cons, List.mem_map, split] at member
  rcases member with rfl | rfl | ⟨row, inside, rfl⟩
  · refine line_ne_nil _ ?_
    rw [title_field_length (fits.titles column listed)]
    exact Nat.succ_pos _
  · refine line_ne_nil _ ?_
    rw [ruleField, alignRight, List.length_append, List.length_singleton]
    exact Nat.succ_pos _
  · obtain ⟨cell, cells, written⟩ := List.exists_cons_of_ne_nil (filled row inside)
    have narrow := fits.cells row inside (column, cell) (by rw [split, written]; exact List.mem_cons_self)
    rw [written, List.zipWith_cons_cons]
    refine line_ne_nil _ ?_
    rw [field_length narrow]
    exact Nat.succ_pos _

/-- The first of several tables with empty lines between them. -/
theorem leading_print {lines : List (List Char)} (whole : ∀ line ∈ lines, '\n' ∉ line)
    (filled : ∀ line ∈ lines, line ≠ []) {back : List Char} (apart : ∀ c ∈ back.head?, c = '\n') :
    leading (print lines ++ back) = print lines := by
  have stop : (back.splitOn '\n').takeWhile (fun line => !line.isEmpty) = [] := by
    cases back with
    | nil => rfl
    | cons c rest =>
        have empty : ('\n' :: rest).splitOn '\n' = [] :: rest.splitOn '\n' :=
          List.splitOn_append_cons_self_of_not_mem List.not_mem_nil rest
        rw [apart c rfl, empty]
        rfl
  have kept : ∀ line ∈ lines, (!line.isEmpty) = true := by
    intro line member
    rw [Bool.not_eq_true', ← Bool.not_eq_true, List.isEmpty_iff]
    exact filled line member
  rw [leading, split_print_append whole, List.takeWhile_append_of_pos kept, stop, List.append_nil]

theorem clear_plain : Clear plainFrame where
  opening := by decide
  before := by decide
  after := by decide

theorem clear_markdown : Clear markdownFrame where
  opening := by decide
  before := by decide
  after := by decide

theorem one_lined_build {titles : List String} {rows : List Row} (lined : OneLined titles rows)
    (alignments : List (Nat × Alignment)) :
    OneLined ((build titles alignments rows).columns.map Column.title) (build titles alignments rows).rows := by
  rw [titles_build, rows_build]
  exact lined

theorem build_back (clear : Clear frame) {titles : List String} {rows : List Row} (lined : OneLined titles rows)
    (alignments : List (Nat × Alignment)) :
    read frame (print ((build titles alignments rows).lines frame)) =
      some (titles.map trimmed, rows.map fun row => (row.cells.take titles.length).map trimmed) := by
  have columns := congrArg List.length (titles_build titles alignments rows)
  rw [List.length_map] at columns
  have named := congrArg (List.map trimmed) (titles_build titles alignments rows)
  rw [List.map_map] at named
  rw [read_lines clear (fits_build titles alignments rows) (one_lined_build lined alignments), rows_build, columns]
  exact congrArg (fun titles => some (titles, _)) named

theorem leading_build (clear : Clear frame) {titles : List String} {rows : List Row} (lined : OneLined titles rows)
    (columns : titles ≠ []) (filled : ∀ row ∈ rows, row.cells ≠ []) (alignments : List (Nat × Alignment))
    {back : List Char} (apart : ∀ c ∈ back.head?, c = '\n') :
    leading (print ((build titles alignments rows).lines frame) ++ back) =
      print ((build titles alignments rows).lines frame) := by
  refine leading_print (lines_whole clear (one_lined_build lined alignments))
    (lines_filled (fits_build titles alignments rows) ?_ ?_) apart
  · rw [← titles_build titles alignments rows] at columns
    exact fun none => columns (congrArg (List.map Column.title) none)
  · rwa [rows_build]

/-- However a table was built, both ways of printing it are read back into its
titles and the cells of its rows, without blanks at their ends. -/
theorem printed_table_read (titles : List String) (alignments : List (Nat × Alignment)) (rows : List Row)
    (lined : OneLined titles rows) :
    let whole := some (titles.map trimmed, rows.map fun row => (row.cells.take titles.length).map trimmed)
    read plainFrame (build titles alignments rows).render = whole ∧
      read markdownFrame (build titles alignments rows).renderMarkdown = whole :=
  ⟨build_back clear_plain lined alignments, build_back clear_markdown lined alignments⟩

/-- A wide character, a missing cell and one too many. -/
theorem uneven_table_read :
    read plainFrame (build ["  # ", "Typ"] [(0, .center), (1, .right)]
        [{ cells := ["0-0", "pünktchen"] }, { cells := ["0-1"] }, { cells := ["0-2", "pcore", "?"] }]).render =
      some (["#".toList, "Typ".toList],
        [["0-0".toList, "pünktchen".toList], ["0-1".toList], ["0-2".toList, "pcore".toList]]) :=
  (printed_table_read ["  # ", "Typ"] [(0, .center), (1, .right)]
    [{ cells := ["0-0", "pünktchen"] }, { cells := ["0-1"] }, { cells := ["0-2", "pcore", "?"] }]
    ⟨by decide, by decide⟩).1

end Table

end Crashlog
