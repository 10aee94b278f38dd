import Crashlog.Label
import Crashlog.ReadField

/-!
# Decoding with a layout

A layout is a table of registers: one row a register, with a path that may be
relative to the row before. The decoder runs over the lines with the tree and
the current path as its state. Read as a table, a layout is a list of rows with
absolute paths, and the tree that comes out shows, at every path, the last row
that was readable there.
-/

namespace Crashlog

open Bytes

namespace Text

def fromUtf8 (bytes : List Byte) : Option String := String.fromUTF8? ⟨bytes.toArray⟩

def stripCarriageReturn (line : List Char) : List Char :=
  if line.getLast? = some '\r' then line.dropLast else line

/-- What follows the last line feed is a line unless it is empty, and keeps its
carriage return. -/
def lines (text : String) : List String :=
  let pieces := text.toList.splitOn '\n'
  let last := pieces.getLastD []
  (pieces.dropLast.map stripCarriageReturn ++ if last.isEmpty then [] else [last]).map String.ofList

end Text

/-! ## The decoder -/

def DELIMITER : Char := ';'

structure DecodeDefinitionEntry where
  name : String := ""
  offset : Nat := 0
  size : Nat := 0
  description : String := ""
  deriving DecidableEq, Repr

namespace DecodeDefinitionEntry

def parseField (field : String) : Except Error Nat :=
  match Text.parseUsize field with
  | .ok value => .ok value
  | .error kind => .error (.parseIntError kind)

def set (entry : DecodeDefinitionEntry) (column field : String) : Except Error DecodeDefinitionEntry :=
  if column = "name" then .ok { entry with name := field }
  else if column = "offset" then (parseField field).map fun offset => { entry with offset }
  else if column = "size" then (parseField field).map fun size => { entry with size }
  else if column = "description" then .ok { entry with description := field }
  else .ok entry

/-- Fields beyond the last column are ignored. -/
def fromLine (columns : List String) (line : String) : Except Error DecodeDefinitionEntry :=
  (columns.zip (Text.split DELIMITER line)).foldlM (fun entry cell => entry.set cell.1 cell.2) {}

end DecodeDefinitionEntry

/-- An empty segment goes up, which has no effect at the top. -/
def followSegment (path : List String) (segment : String) : List String :=
  if segment = "" then path.dropLast else path ++ [segment]

namespace Record

variable [UnicodeTables]

/-- What the decoder does to the node at the end of the path of an entry. -/
def fillLabel (record : Record) (offset : Nat) (entry : DecodeDefinitionEntry) (label : Label) : Label where
  description := entry.description
  kind :=
    match record.readField ((offset * 8 + entry.offset) % 2 ^ 64) entry.size with
    | some value => .field value
    | none => label.kind

/-- One turn of the loop, for an entry with a name. The top-level segment is
assumed to be the record name. -/
def decodeEntry (record : Record) (offset : Nat) (root : Node) (currentPath : List String)
    (entry : DecodeDefinitionEntry) : Option (Node × List String) :=
  match Text.split '.' entry.name with
  | [] => some (root, currentPath)
  | top :: segments =>
      let currentPath := segments.foldl followSegment (if top = "" then currentPath else [top])
      let root :=
        if top ≠ "" ∧ (root.get top).isNone then root.add (Node.newRecord top) else root
      (root.createHierarchyFromIter currentPath fun node =>
        some (node.withLabel (record.fillLabel offset entry node.label))).map (·, currentPath)

/-- The loop over the lines after the header. -/
def decodeLines (record : Record) (columns : List String) (offset : Nat) (root : Node)
    (currentPath : List String) : List String → Option (Except Error Node)
  | [] => some (.ok root)
  | line :: rest =>
      match DecodeDefinitionEntry.fromLine columns line with
      | .error error => some (.error error)
      | .ok entry =>
          if entry.name = "" then record.decodeLines columns offset root currentPath rest
          else
            match record.decodeEntry offset root currentPath entry with
            | none => none
            | some (root, currentPath) => record.decodeLines columns offset root currentPath rest

/-- The outer `none` is the panic of a hierarchy that cannot be built. -/
def decodeWithCsv (record : Record) (layout : List Byte) (offset : Nat) : Option (Except Error Node) :=
  match Text.fromUtf8 layout with
  | none => some (.error .utf8Error)
  | some csv =>
      match Text.lines csv with
      | [] => some (.ok Node.newRoot)
      | header :: lines =>
          record.decodeLines (Text.split DELIMITER header) offset Node.newRoot [] lines

end Record

/-! ## A layout as a table -/

structure Layout where
  columns : List String
  lines : List String

/-- A register with the path it resolves to. -/
structure Row where
  path : List String
  entry : DecodeDefinitionEntry
  deriving DecidableEq, Repr

namespace Layout

def ofText (text : String) : Layout where
  columns := (Text.lines text).head?.elim [] (Text.split DELIMITER)
  lines := (Text.lines text).tail

/-- The cell of a line below a column. -/
def cell (columns : List String) (line column : String) : Option String :=
  (columns.zip (Text.split DELIMITER line)).lookup column

def numberOf (field : Option String) : Nat :=
  (field.bind fun text => (Text.parseUsize text).toOption).getD 0

/-- Missing cells count as zero or empty. -/
def entryOf (columns : List String) (line : String) : DecodeDefinitionEntry where
  name := (cell columns line "name").getD ""
  offset := numberOf (cell columns line "offset")
  size := numberOf (cell columns line "size")
  description := (cell columns line "description").getD ""

/-- The path of a name that follows a row with the given path. -/
def resolve (previous : List String) (name : String) : List String :=
  match Text.split '.' name with
  | [] => previous
  | top :: segments => segments.foldl followSegment (if top = "" then previous else [top])

/-- Entries without a name are ignored. -/
def resolveAll (previous : List String) : List DecodeDefinitionEntry → List Row
  | [] => []
  | entry :: rest =>
      if entry.name = "" then resolveAll previous rest
      else { path := resolve previous entry.name, entry } :: resolveAll (resolve previous entry.name) rest

def rows (layout : Layout) : List Row :=
  resolveAll [] (layout.lines.map (entryOf layout.columns))

def columnNames : List String := ["name", "offset", "size", "description"]

/-- What a layout has to fulfil to be decoded without an error. -/
structure Decodable [UnicodeTables] (layout : Layout) (offset : Nat) : Prop where
  columnsOnce : ∀ column ∈ columnNames, layout.columns.count column = 1
  cellsParse : ∀ line ∈ layout.lines, ∀ column ∈ ["offset", "size"],
    ∀ field ∈ cell layout.columns line column, (Text.parseUsize field).isOk
  lowercase : ∀ row ∈ layout.rows, ∀ segment ∈ Text.split '.' row.entry.name, Node.Lowercase segment
  fits : ∀ row ∈ layout.rows, offset * 8 + row.entry.offset < 2 ^ 64

end Layout

namespace Row

def Readable (row : Row) (record : Record) (offset : Nat) : Prop :=
  FieldReadable record.data (offset * 8 + row.entry.offset) row.entry.size

instance (row : Row) (record : Record) (offset : Nat) : Decidable (row.Readable record offset) :=
  inferInstanceAs (Decidable (FieldReadable _ _ _))

def value (row : Row) (record : Record) (offset : Nat) : UInt64 :=
  fieldValue record.data (offset * 8 + row.entry.offset) row.entry.size

/-- The last row at a path. -/
def lastAt (rows : List Row) (path : List String) : Option Row :=
  (rows.filter fun row => row.path = path).getLast?

/-- The last row at a path that is readable. -/
def lastReadable (record : Record) (offset : Nat) (rows : List Row) (path : List String) : Option Row :=
  (rows.filter fun row => row.path = path ∧ row.Readable record offset).getLast?

end Row

/-! ## Reading the cells of a line -/

namespace Layout

/-- No column is named twice among the cells. -/
def CellsOnce (cells : List (String × String)) : Prop :=
  ∀ column ∈ columnNames, (cells.map Prod.fst).count column ≤ 1

def CellsParse (cells : List (String × String)) : Prop :=
  ∀ column ∈ ["offset", "size"], ∀ field ∈ cells.lookup column, (Text.parseUsize field).isOk

/-- An entry with the cells written over it. -/
def overlay (cells : List (String × String)) (entry : DecodeDefinitionEntry) : DecodeDefinitionEntry where
  name := (cells.lookup "name").getD entry.name
  offset := (cells.lookup "offset").elim entry.offset fun field => numberOf (some field)
  size := (cells.lookup "size").elim entry.size fun field => numberOf (some field)
  description := (cells.lookup "description").getD entry.description

section Cells

variable {cells : List (String × String)} {column field : String}

theorem lookup_after_own (once : CellsOnce ((column, field) :: cells)) (named : column ∈ columnNames) :
    cells.lookup column = none := by
  have count := once column named
  rw [List.map_cons, List.count_cons_self] at count
  have absent : column ∉ cells.map Prod.fst := List.count_eq_zero.mp (by omega)
  rw [List.lookup_eq_none_iff]
  intro cell member
  have apart : column ≠ cell.1 := by
    rintro rfl
    exact absent (List.mem_map_of_mem member)
  simpa using apart

theorem CellsOnce.tail (once : CellsOnce ((column, field) :: cells)) : CellsOnce cells := by
  intro other named
  exact (List.count_le_count_cons ..).trans (once other named)

theorem lookup_cons_ne {other : String} (apart : other ≠ column) :
    ((column, field) :: cells).lookup other = cells.lookup other := by
  rw [List.lookup_cons, beq_false_of_ne apart]

theorem CellsParse.tail (once : CellsOnce ((column, field) :: cells))
    (parse : CellsParse ((column, field) :: cells)) : CellsParse cells := by
  intro other numeric text found
  by_cases same : other = column
  · subst same
    have named : other ∈ columnNames := by
      simp only [List.mem_cons, List.not_mem_nil, or_false] at numeric
      rcases numeric with rfl | rfl <;> decide
    rw [lookup_after_own once named] at found
    cases found
  · exact parse other numeric text (by rwa [lookup_cons_ne same])

theorem parse_field_eq_ok (parse : CellsParse ((column, field) :: cells))
    (numeric : column ∈ ["offset", "size"]) :
    DecodeDefinitionEntry.parseField field = .ok (numberOf (some field)) := by
  have ok := parse column numeric field List.lookup_cons_self
  cases parsed : Text.parseUsize field with
  | error kind =>
      rw [parsed] at ok
      cases ok
  | ok value => simp [DecodeDefinitionEntry.parseField, numberOf, parsed, Except.toOption]

/-- One cell. -/
theorem set_overlay (once : CellsOnce ((column, field) :: cells))
    (parse : CellsParse ((column, field) :: cells)) (entry : DecodeDefinitionEntry) :
    ∃ next, entry.set column field = .ok next ∧
      overlay cells next = overlay ((column, field) :: cells) entry := by
  unfold DecodeDefinitionEntry.set
  split_ifs with name offset size description
  · subst name
    refine ⟨_, rfl, ?_⟩
    simp [overlay, List.lookup_cons, lookup_after_own once (by decide)]
  · subst offset
    refine ⟨_, by rw [parse_field_eq_ok parse (by decide)]; rfl, ?_⟩
    simp [overlay, List.lookup_cons, lookup_after_own once (by decide)]
  · subst size
    refine ⟨_, by rw [parse_field_eq_ok parse (by decide)]; rfl, ?_⟩
    simp [overlay, List.lookup_cons, lookup_after_own once (by decide)]
  · subst description
    refine ⟨_, rfl, ?_⟩
    simp [overlay, List.lookup_cons, lookup_after_own once (by decide)]
  · refine ⟨_, rfl, ?_⟩
    simp [overlay, lookup_cons_ne (Ne.symm name), lookup_cons_ne (Ne.symm offset),
      lookup_cons_ne (Ne.symm size), lookup_cons_ne (Ne.symm description)]

theorem fold_cells (once : CellsOnce cells) (parse : CellsParse cells) (entry : DecodeDefinitionEntry) :
    cells.foldlM (fun entry cell => entry.set cell.1 cell.2) entry =
      (.ok (overlay cells entry) : Except Error DecodeDefinitionEntry) := by
  induction cells generalizing entry with
  | nil => rfl
  | cons cell rest ih =>
      obtain ⟨column, field⟩ := cell
      obtain ⟨next, set, same⟩ := set_overlay once parse entry
      rw [List.foldlM_cons, set, ← same]
      exact ih once.tail (parse.tail once) next

end Cells

theorem zip_columns_head {α β : Type*} (left : List α) (right : List β) :
    (left.zip right).map Prod.fst <+: left := by
  induction left generalizing right with
  | nil => simp
  | cons first rest ih =>
      cases right with
      | nil => simp
      | cons second right => simpa using ih right

/-- A line whose cells are in order is read as the entry the table shows. -/
theorem from_line_eq {columns : List String} {line : String}
    (columnsOnce : ∀ column ∈ columnNames, columns.count column = 1)
    (parse : CellsParse (columns.zip (Text.split DELIMITER line))) :
    DecodeDefinitionEntry.fromLine columns line = .ok (entryOf columns line) := by
  have once : CellsOnce (columns.zip (Text.split DELIMITER line)) := fun column named =>
    ((zip_columns_head _ _).sublist.count_le column).trans (columnsOnce column named).le
  have default_number (found : Option String) :
      (found.elim 0 fun field => numberOf (some field)) = numberOf found := by
    cases found <;> rfl
  rw [DecodeDefinitionEntry.fromLine, fold_cells once parse]
  simp only [overlay, entryOf, cell, default_number]

end Layout

/-! ## What the rows leave in the tree -/

namespace Row

/-- What decoding a list of rows makes of a tree. -/
structure Shows (record : Record) (offset : Nat) (rows : List Row) (before after : Node) : Prop where
  value : ∀ path, (after.labelAt path).bind Label.value =
    ((lastReadable record offset rows path).map fun row => row.value record offset).or
      ((before.labelAt path).bind Label.value)
  described : ∀ path row, lastAt rows path = some row →
    (after.labelAt path).map Label.description = some row.entry.description
  kept : ∀ path, lastAt rows path = none → ∀ label, before.labelAt path = some label →
    (after.labelAt path).map Label.description = some label.description

variable {record : Record} {offset : Nat} {rows first second : List Row} {before after between : Node}

theorem last_at_append (path : List String) :
    lastAt (first ++ second) path = (lastAt second path).or (lastAt first path) := by
  rw [lastAt, List.filter_append, List.getLast?_append]
  rfl

theorem last_readable_append (path : List String) :
    lastReadable record offset (first ++ second) path =
      (lastReadable record offset second path).or (lastReadable record offset first path) := by
  rw [lastReadable, List.filter_append, List.getLast?_append]
  rfl

theorem last_at_single (row : Row) (path : List String) :
    lastAt [row] path = if row.path = path then some row else none := by
  by_cases here : row.path = path <;> simp [lastAt, here]

theorem last_readable_single (row : Row) (path : List String) :
    lastReadable record offset [row] path =
      if row.path = path ∧ row.Readable record offset then some row else none := by
  by_cases here : row.path = path ∧ row.Readable record offset <;> simp [lastReadable, here]

namespace Shows

theorem none (root : Node) : Shows record offset [] root root where
  value path := by simp [lastReadable]
  described path row found := by
    cases found
  kept path _ label found := by rw [found, Option.map_some]

theorem append (front : Shows record offset first before between)
    (back : Shows record offset second between after) :
    Shows record offset (first ++ second) before after where
  value path := by
    rw [back.value, front.value, last_readable_append, Option.map_or, Option.or_assoc]
  described path row found := by
    rw [last_at_append] at found
    cases late : lastAt second path with
    | some last =>
        rw [late, Option.some_or, Option.some.injEq] at found
        subst found
        exact back.described path last late
    | none =>
        rw [late, Option.none_or] at found
        have early := front.described path row found
        obtain ⟨label, shown, same⟩ := Option.map_eq_some_iff.mp early
        rw [back.kept path late label shown, same]
  kept path unresolved label found := by
    rw [last_at_append, Option.or_eq_none_iff] at unresolved
    have early := front.kept path unresolved.2 label found
    obtain ⟨middle, shown, same⟩ := Option.map_eq_some_iff.mp early
    rw [back.kept path unresolved.1 middle shown, same]

variable [UnicodeTables]

/-- A new record has no value and hides nothing. -/
theorem add_record {root : Node} {name : String} (lowercase : Node.Lowercase name)
    (free : root.get name = .none) : Shows record offset [] root (root.add (Node.newRecord name)) where
  value path := by
    rw [Node.label_at_add_record lowercase free]
    by_cases here : path = [name]
    · subst here
      rw [if_pos rfl, Node.label_at_cons, free]
      rfl
    · rw [if_neg here]
      rfl
  described path row found := by
    cases found
  kept path _ label found := by
    rw [Node.label_at_add_record lowercase free]
    by_cases here : path = [name]
    · subst here
      rw [Node.label_at_cons, free] at found
      cases found
    · rw [if_neg here, found, Option.map_some]

omit [UnicodeTables] in
theorem relabelled {row : Row} (fits : offset * 8 + row.entry.offset < 2 ^ 64)
    (changed : Node.Relabelled before after row.path (record.fillLabel offset row.entry)) :
    Shows record offset [row] before after where
  value path := by
    rw [last_readable_single]
    by_cases here : row.path = path
    · subst here
      have filled (label : Label) : (record.fillLabel offset row.entry label).value =
          if row.Readable record offset then some (row.value record offset) else label.value := by
        rw [Label.value, Record.fillLabel, Nat.mod_eq_of_lt fits, Record.read_field_eq]
        by_cases readable : row.Readable record offset
        · simp only [if_pos readable, show FieldReadable record.data _ _ from readable, if_true]
          rfl
        · simp only [if_neg readable, show ¬ FieldReadable record.data _ _ from readable, if_false]
          rfl
      rw [changed.changed, Option.bind_some, filled]
      by_cases readable : row.Readable record offset
      · simp [readable]
      · cases before.labelAt row.path <;> simp [readable, Label.fresh, Label.value]
    · simp only [here, false_and, if_false, Option.map_none, Option.none_or]
      by_cases inside : path <+: row.path
      · rw [changed.onTheWay path inside (Ne.symm here)]
        cases before.labelAt path <;> rfl
      · rw [changed.others path inside]
  described path last found := by
    rw [last_at_single] at found
    split_ifs at found with here
    cases found
    subst here
    rw [changed.changed]
    rfl
  kept path unresolved label found := by
    rw [last_at_single] at unresolved
    split_ifs at unresolved with here
    by_cases inside : path <+: row.path
    · rw [changed.onTheWay path inside (Ne.symm here), found]
      rfl
    · rw [changed.others path inside, found]
      rfl

end Shows

end Row

/-! ## The decoder follows the table -/

section Decoding

variable [UnicodeTables] {record : Record} {offset : Nat}

theorem follow_segments_lowercase {path segments : List String}
    (pathLowercase : ∀ name ∈ path, Node.Lowercase name)
    (segmentsLowercase : ∀ segment ∈ segments, Node.Lowercase segment) :
    ∀ name ∈ segments.foldl followSegment path, Node.Lowercase name := by
  induction segments generalizing path with
  | nil => exact pathLowercase
  | cons segment rest ih =>
      apply ih
      · intro name member
        unfold followSegment at member
        split_ifs at member
        · exact pathLowercase name (List.dropLast_subset path member)
        · rcases List.mem_append.mp member with old | new
          · exact pathLowercase name old
          · rw [List.mem_singleton.mp new]
            exact segmentsLowercase segment (by simp)
      · exact fun other member => segmentsLowercase other (by simp [member])

theorem resolve_lowercase {previous : List String} {relative : String}
    (previousLowercase : ∀ name ∈ previous, Node.Lowercase name)
    (segmentsLowercase : ∀ segment ∈ Text.split '.' relative, Node.Lowercase segment) :
    ∀ name ∈ Layout.resolve previous relative, Node.Lowercase name := by
  rw [Layout.resolve]
  cases segmented : Text.split '.' relative with
  | nil => exact previousLowercase
  | cons top segments =>
      rw [segmented] at segmentsLowercase
      apply follow_segments_lowercase
      · split_ifs
        · exact previousLowercase
        · simpa using segmentsLowercase top (by simp)
      · exact fun segment member => segmentsLowercase segment (by simp [member])

/-- One row. -/
theorem decode_entry_shows (record : Record) (root : Node) {previous : List String} {entry : DecodeDefinitionEntry}
    (previousLowercase : ∀ name ∈ previous, Node.Lowercase name)
    (segmentsLowercase : ∀ segment ∈ Text.split '.' entry.name, Node.Lowercase segment)
    (fits : offset * 8 + entry.offset < 2 ^ 64) :
    ∃ next, record.decodeEntry offset root previous entry =
        some (next, Layout.resolve previous entry.name) ∧
      Row.Shows record offset [{ path := Layout.resolve previous entry.name, entry }] root next := by
  have pathLowercase := resolve_lowercase previousLowercase segmentsLowercase
  cases segmented : Text.split '.' entry.name with
  | nil => exact absurd segmented (Text.split_ne_nil _ _)
  | cons top segments =>
      have topLowercase : Node.Lowercase top := segmentsLowercase top (by simp [segmented])
      have resolved : Layout.resolve previous entry.name =
          segments.foldl followSegment (if top = "" then previous else [top]) := by
        rw [Layout.resolve, segmented]
      rw [resolved] at pathLowercase
      simp only [Record.decodeEntry, segmented, resolved]
      -- The record node comes first, where it is missing.
      obtain ⟨placed, same, shown⟩ : ∃ placed, placed =
          (if top ≠ "" ∧ (root.get top).isNone then root.add (Node.newRecord top) else root) ∧
          Row.Shows record offset [] root placed := by
        refine ⟨_, rfl, ?_⟩
        split_ifs with missing
        · exact .add_record topLowercase (Option.isNone_iff_eq_none.mp missing.2)
        · exact .none root
      rw [← same]
      obtain ⟨next, built, relabelled⟩ :=
        Node.create_hierarchy_relabels placed (record.fillLabel offset entry) pathLowercase
      refine ⟨next, by rw [built, Option.map_some], ?_⟩
      exact shown.append (.relabelled fits relabelled)

/-- All rows. -/
theorem decode_lines_shows (record : Record) (root : Node) {columns lines previous : List String}
    (read : ∀ line ∈ lines, DecodeDefinitionEntry.fromLine columns line =
      .ok (Layout.entryOf columns line))
    (previousLowercase : ∀ name ∈ previous, Node.Lowercase name)
    (lowercase : ∀ row ∈ Layout.resolveAll previous (lines.map (Layout.entryOf columns)),
      ∀ segment ∈ Text.split '.' row.entry.name, Node.Lowercase segment)
    (fits : ∀ row ∈ Layout.resolveAll previous (lines.map (Layout.entryOf columns)),
      offset * 8 + row.entry.offset < 2 ^ 64) :
    ∃ result, record.decodeLines columns offset root previous lines = some (.ok result) ∧
      Row.Shows record offset (Layout.resolveAll previous (lines.map (Layout.entryOf columns)))
        root result := by
  induction lines generalizing root previous with
  | nil => exact ⟨root, rfl, .none root⟩
  | cons line rest ih =>
      have restRead : ∀ other ∈ rest, DecodeDefinitionEntry.fromLine columns other =
          .ok (Layout.entryOf columns other) := fun other member => read other (by simp [member])
      rw [List.map_cons, Layout.resolveAll] at lowercase fits ⊢
      simp only [Record.decodeLines, read line (by simp)]
      by_cases unnamed : (Layout.entryOf columns line).name = ""
      · simp only [if_pos unnamed] at lowercase fits ⊢
        exact ih root restRead previousLowercase lowercase fits
      · simp only [if_neg unnamed, List.forall_mem_cons] at lowercase fits ⊢
        obtain ⟨next, decoded, shown⟩ := decode_entry_shows record root
          previousLowercase lowercase.1 fits.1
        obtain ⟨result, rest, restShown⟩ := ih next restRead
          (resolve_lowercase previousLowercase lowercase.1) lowercase.2 fits.2
        refine ⟨result, ?_, shown.append restShown⟩
        simp only [decoded, rest]

/-- The tree shows the last readable row and the last description at every path. -/
theorem Record.decode_with_csv_reads_rows (record : Record) (offset : Nat) (bytes : List Byte)
    (text : String) (utf8 : Text.fromUtf8 bytes = some text)
    (decodable : (Layout.ofText text).Decodable offset) :
    ∃ root, record.decodeWithCsv bytes offset = some (.ok root) ∧
      (∀ path value, root.getValueByPath path = some value ↔
        ∃ row, Row.lastReadable record offset (Layout.ofText text).rows (Text.split '.' path) = some row ∧
          row.value record offset = value) ∧
      ∀ path row, Row.lastAt (Layout.ofText text).rows (Text.split '.' path) = some row →
        (root.getByPath path).map Node.description = some row.entry.description := by
  have read : ∀ line ∈ (Layout.ofText text).lines,
      DecodeDefinitionEntry.fromLine (Layout.ofText text).columns line =
        .ok (Layout.entryOf (Layout.ofText text).columns line) := fun line member =>
    Layout.from_line_eq decodable.columnsOnce (decodable.cellsParse line member)
  obtain ⟨root, decoded, shown⟩ := decode_lines_shows record Node.newRoot read
    (by simp : ∀ name ∈ [], Node.Lowercase name) decodable.lowercase decodable.fits
  refine ⟨root, ?_, ?_, ?_⟩
  · rw [decodeWithCsv, utf8]
    cases split : Text.lines text with
    | nil =>
        have columnless := decodable.columnsOnce "name" (by decide)
        simp [Layout.ofText, split] at columnless
    | cons header lines =>
        simpa [Layout.ofText, split] using decoded
  · intro path value
    have before : ((Node.newRoot).labelAt (Text.split '.' path)).bind Label.value = none := by
      rw [Node.label_at_childless rfl (Text.split_ne_nil _ _), Option.bind_none]
    rw [Node.get_value_by_path_eq, shown.value, before, Option.or_none, Option.map_eq_some_iff]
    rfl
  · intro path row found
    rw [← shown.described _ row found, Node.getByPath, Node.labelAt, Option.map_map]
    rfl

end Decoding

/-- The last row is out of the record: it changes the description only. -/
theorem field_read_behind_relative_path :
    letI := UnicodeTables.ascii
    let record : Record := { data := [0x80, 0x81, 0x82] }
    let bytes := "name;offset;size;description\nfoo;0;128;\n.aaa;8;8;first\nfoo.aaa;800;8;beyond".toUTF8.toList
    ∃ root, record.decodeWithCsv bytes 0 = some (.ok root) ∧
      root.getValueByPath "foo.aaa" = some 0x81 ∧
      (root.getByPath "foo.aaa").map Node.description = some "beyond" := by
  let _ := UnicodeTables.ascii
  let record : Record := { data := [0x80, 0x81, 0x82] }
  let text := "name;offset;size;description\nfoo;0;128;\n.aaa;8;8;first\nfoo.aaa;800;8;beyond"
  have decodable : (Layout.ofText text).Decodable 0 :=
    { columnsOnce := by decide
      cellsParse := by decide
      lowercase := by decide
      fits := by decide }
  obtain ⟨root, decoded, values, descriptions⟩ :=
    record.decode_with_csv_reads_rows 0 text.toUTF8.toList text (by decide +kernel) decodable
  refine ⟨root, decoded, ?_, ?_⟩
  · exact (values "foo.aaa" 0x81).mpr
      ⟨{ path := ["foo", "aaa"], entry := { name := ".aaa", offset := 8, size := 8, description := "first" } },
        by decide +kernel, by decide +kernel⟩
  · exact descriptions "foo.aaa"
      { path := ["foo", "aaa"], entry := { name := "foo.aaa", offset := 800, size := 8, description := "beyond" } }
      (by decide +kernel)

end Crashlog
