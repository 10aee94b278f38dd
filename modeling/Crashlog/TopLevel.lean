import Crashlog.Hierarchy
import Crashlog.Layout

/-!
# The top level of a decoded layout

A layout is meant to be decoded into a root whose children are records. Rows
write to the top level in three ways: an absolute row adds a record where its
first name is missing, a row whose path begins with a missing name adds a
section, and a readable row with a path of a single name makes a field of the
node there. `topEvents` lists what the rows of a layout do to the top level,
and the tree shows the last event at every name.
-/

namespace Crashlog

open Bytes

/-! ## What rows do to the top level -/

inductive TopEvent where
  | addRecord (name : String)
  | addSection (name : String)
  | makeField (name : String)
  deriving DecidableEq, Repr

namespace TopEvent

def name : TopEvent → String
  | addRecord name | addSection name | makeField name => name

def isRecord : TopEvent → Bool
  | addRecord _ => true
  | addSection _ | makeField _ => false

/-- The last event at a name. -/
def last (events : List TopEvent) (name : String) : Option TopEvent :=
  (events.filter fun event => event.name = name).getLast?

theorem last_snoc (events : List TopEvent) (event : TopEvent) (name : String) :
    last (events ++ [event]) name = if event.name = name then some event else last events name := by
  by_cases here : event.name = name <;> simp [last, here]

end TopEvent

namespace Row

/-- The first segment of the name, which is empty for a relative path. -/
def top (row : Row) : String := (Text.split '.' row.entry.name).headD ""

variable [UnicodeTables]

/-- The record that an absolute row adds. -/
def recordEvents (row : Row) (before : List TopEvent) : List TopEvent :=
  if row.top ≠ "" ∧ row.top ∉ before.map TopEvent.name then
    [.addRecord (UnicodeTables.toLowercase row.top)]
  else []

omit [UnicodeTables] in
/-- The section that is added at the head of the path, and the field at its end. -/
def pathEvents (row : Row) (record : Record) (offset : Nat) (before : List TopEvent) : List TopEvent :=
  match row.path with
  | [] => []
  | name :: rest =>
      (if name ∈ before.map TopEvent.name then [] else [.addSection name]) ++
        if rest = [] ∧ row.Readable record offset then [.makeField name] else []

/-- The events of a row, after those of the rows before it. -/
def topEvents (row : Row) (record : Record) (offset : Nat) (before : List TopEvent) : List TopEvent :=
  let added := row.recordEvents before
  added ++ row.pathEvents record offset (before ++ added)

end Row

namespace Layout

variable [UnicodeTables]

/-- The events of all rows, in order. -/
def topEvents (record : Record) (offset : Nat) (before : List TopEvent) : List Row → List TopEvent
  | [] => before
  | row :: rest => topEvents record offset (before ++ row.topEvents record offset before) rest

/-- The rows of a layout as the decoder reads them. -/
def parsedRows (layout : List Byte) : List Row :=
  match Text.fromUtf8 layout with
  | none => []
  | some csv =>
      match Text.lines csv with
      | [] => []
      | header :: lines =>
          match lines.mapM (DecodeDefinitionEntry.fromLine (Text.split DELIMITER header)) with
          | .error _ => []
          | .ok entries => resolveAll [] entries

end Layout

/-! ## The tree shows the last event -/

/-- The children of a root are the names with events, and records where the
last event added one. -/
structure TopShows (events : List TopEvent) (root : Node) : Prop where
  sorted : OrderedMap.Sorted root.children
  shows : ∀ name, (root.get name).map (fun child => decide (child.kind = .record)) =
    (TopEvent.last events name).map TopEvent.isRecord

namespace TopShows

variable {events : List TopEvent} {root child after : Node} {name : String}

theorem start : TopShows [] Node.newRoot where
  sorted := OrderedMap.sorted_nil
  shows _ := rfl

theorem get_isSome_iff (shown : TopShows events root) :
    (root.get name).isSome ↔ name ∈ events.map TopEvent.name := by
  have same := congrArg Option.isSome (shown.shows name)
  rw [Option.isSome_map, Option.isSome_map] at same
  rw [same, TopEvent.last, List.getLast?_isSome, List.mem_map]
  simp [List.filter_eq_nil_iff]

/-- One event. -/
theorem event (shown : TopShows events root) (event : TopEvent)
    (kind : decide (child.kind = .record) = event.isRecord) :
    TopShows (events ++ [event]) (root.setChild event.name child) where
  sorted := OrderedMap.sorted_insert shown.sorted _ _
  shows name := by
    rw [TopEvent.last_snoc, Node.get_set_child]
    split_ifs with here
    · rw [Option.map_some, Option.map_some, kind]
    · exact shown.shows name

/-- A change below the top level. -/
theorem below (shown : TopShows events root) (stored : root.get name = some child)
    (kind : after.kind = child.kind) : TopShows events (root.setChild name after) where
  sorted := OrderedMap.sorted_insert shown.sorted _ _
  shows other := by
    rw [← shown.shows other, Node.get_set_child]
    split_ifs with here
    · rw [← here, stored, Option.map_some, Option.map_some, kind]
    · rfl

end TopShows

/-! ## The decoder shows the events -/

section Decoding

variable [UnicodeTables] {record : Record} {offset : Nat} {root result next : Node}
  {previous path : List String} {entry : DecodeDefinitionEntry} {events : List TopEvent}

omit [UnicodeTables] in
/-- Positions of bits wrap around. -/
theorem field_readable_mod (data : List Byte) (position size : Nat) :
    FieldReadable data (position % 2 ^ 64) size ↔ FieldReadable data position size := by
  simp only [FieldReadable, fieldBit, Nat.mod_add_mod]

omit [UnicodeTables] in
/-- Filling in a value makes a field, and nothing else changes the kind. -/
theorem fill_label_kind (record : Record) (offset : Nat) (row : Row) (label : Label) :
    (row.Readable record offset → ∃ value, (record.fillLabel offset row.entry label).kind = .field value) ∧
      (¬ row.Readable record offset → (record.fillLabel offset row.entry label).kind = label.kind) := by
  have readable_iff : FieldReadable record.data ((offset * 8 + row.entry.offset) % 2 ^ 64) row.entry.size ↔
      row.Readable record offset := field_readable_mod ..
  rw [Record.fillLabel, Record.read_field_eq]
  constructor
  · intro readable
    rw [if_pos (readable_iff.mpr readable)]
    exact ⟨_, rfl⟩
  · intro unreadable
    rw [if_neg fun readable => unreadable (readable_iff.mp readable)]

/-- The head of a path is a child that was there or a new section. -/
theorem Node.create_hierarchy_head {name : String} {rest : List String} {update : Node → Option Node}
    (created : root.createHierarchyFromIter (name :: rest) update = some result) :
    ∃ child after, (root.get name = some child ∨ root.get name = none ∧ child = newSection name) ∧
      child.createHierarchyFromIter rest update = some after ∧ result = root.setChild name after := by
  have lowercase := lowercase_of_created created
  cases found : root.get name with
  | some child =>
      rw [Built.step_into update (.inl found)] at created
      obtain ⟨after, below, rfl⟩ := Option.map_eq_some_iff.mp created
      exact ⟨child, after, .inl rfl, below, rfl⟩
  | none =>
      have own := ((LowercaseWhereMissing.cons_iff_of_missing found).mp lowercase).1
      rw [Built.step_into update (.inr ⟨found, rfl, own⟩)] at created
      obtain ⟨after, below, rfl⟩ := Option.map_eq_some_iff.mp created
      exact ⟨newSection name, after, .inr ⟨rfl, rfl⟩, below, rfl⟩

/-- The node at the head of a path that goes on keeps its kind. -/
theorem Node.create_hierarchy_kind {name : String} {rest : List String} {update : Node → Option Node}
    (created : root.createHierarchyFromIter (name :: rest) update = some result) :
    result.kind = root.kind := by
  obtain ⟨child, after, _, _, rfl⟩ := create_hierarchy_head created
  exact set_child_kind ..

/-- The tree with a section at the head of a path, if one was missing. -/
theorem TopShows.entered {name : String} {child : Node} (shown : TopShows events root)
    (head : root.get name = some child ∨ root.get name = none ∧ child = Node.newSection name) :
    TopShows (events ++ if name ∈ events.map TopEvent.name then [] else [.addSection name])
      (root.setChild name child) := by
  rcases head with old | ⟨new, rfl⟩
  · have known : name ∈ events.map TopEvent.name := shown.get_isSome_iff.mp (by rw [old]; rfl)
    rw [if_pos known, List.append_nil]
    exact shown.below old rfl
  · have unknown : name ∉ events.map TopEvent.name := fun known => by
      have present := shown.get_isSome_iff.mpr known
      rw [new] at present
      cases present
    rw [if_neg unknown]
    exact shown.event (.addSection name) rfl

/-- The hierarchy of a row. -/
theorem TopShows.hierarchy {row : Row} (shown : TopShows events root)
    (created : root.createHierarchyFromIter row.path (fun node =>
      some (node.withLabel (record.fillLabel offset row.entry node.label))) = some next) :
    TopShows (events ++ row.pathEvents record offset events) next := by
  cases segmented : row.path with
  | nil =>
      rw [segmented, Node.createHierarchyFromIter] at created
      cases created
      rw [Row.pathEvents, segmented, List.append_nil]
      exact ⟨shown.sorted, shown.shows⟩
  | cons name rest =>
      rw [segmented] at created
      obtain ⟨child, after, head, below, rfl⟩ := Node.create_hierarchy_head created
      have entered := shown.entered head
      have replaced : root.setChild name after = (root.setChild name child).setChild name after :=
        (Node.set_child_set_child ..).symm
      have stored : (root.setChild name child).get name = some child := Node.get_set_child_self ..
      rw [Row.pathEvents, segmented, ← List.append_assoc, replaced]
      cases rest with
      | cons second rest =>
          have onwards : ¬ (second :: rest = [] ∧ row.Readable record offset) := fun both =>
            List.cons_ne_nil _ _ both.1
          rw [if_neg onwards, List.append_nil]
          exact entered.below stored (Node.create_hierarchy_kind below)
      | nil =>
          rw [Node.createHierarchyFromIter] at below
          cases below
          have filled := fill_label_kind record offset row child.label
          by_cases readable : row.Readable record offset
          · obtain ⟨value, field⟩ := filled.1 readable
            have both : ([] : List String) = [] ∧ row.Readable record offset := ⟨rfl, readable⟩
            rw [if_pos both]
            apply entered.event (.makeField name)
            rw [show (child.withLabel (record.fillLabel offset row.entry child.label)).kind = .field value
              from field]
            rfl
          · have unread : ¬ (([] : List String) = [] ∧ row.Readable record offset) := fun both =>
              readable both.2
            rw [if_neg unread, List.append_nil]
            exact entered.below stored (filled.2 readable)

/-- The root turns into a field when a readable row has an empty path. -/
theorem hierarchy_root_kind {row : Row}
    (created : root.createHierarchyFromIter row.path (fun node =>
      some (node.withLabel (record.fillLabel offset row.entry node.label))) = some next) :
    next.kind = .root ↔ root.kind = .root ∧ ¬ (row.path = [] ∧ row.Readable record offset) := by
  cases segmented : row.path with
  | cons name rest =>
      rw [segmented] at created
      rw [Node.create_hierarchy_kind created]
      simp
  | nil =>
      rw [segmented, Node.createHierarchyFromIter] at created
      cases created
      have filled := fill_label_kind record offset row root.label
      by_cases readable : row.Readable record offset
      · obtain ⟨value, field⟩ := filled.1 readable
        have changed : (root.withLabel (record.fillLabel offset row.entry root.label)).kind = .field value :=
          field
        simp [changed, readable]
      · have same : (root.withLabel (record.fillLabel offset row.entry root.label)).kind = root.kind :=
          filled.2 readable
        simp [same, readable]

/-- One row. -/
theorem decode_entry_top (shown : TopShows events root)
    (decoded : record.decodeEntry offset root previous entry = some (next, path)) :
    let row : Row := { path := Layout.resolve previous entry.name, entry }
    path = row.path ∧ TopShows (events ++ row.topEvents record offset events) next ∧
      (next.kind = .root ↔ root.kind = .root ∧ ¬ (row.path = [] ∧ row.Readable record offset)) := by
  intro row
  cases segmented : Text.split '.' entry.name with
  | nil => exact absurd segmented (Text.split_ne_nil _ _)
  | cons top segments =>
      have named : row.top = top := by simp [row, Row.top, segmented]
      have resolved : row.path = segments.foldl followSegment (if top = "" then previous else [top]) := by
        simp only [row, Layout.resolve, segmented]
      simp only [Record.decodeEntry, segmented, ← resolved] at decoded
      obtain ⟨placed, same⟩ : ∃ placed, placed =
        if top ≠ "" ∧ (root.get top).isNone then root.add (Node.newRecord top) else root := ⟨_, rfl⟩
      rw [← same] at decoded
      obtain ⟨final, created, pair⟩ := Option.map_eq_some_iff.mp decoded
      cases pair
      -- The record node comes first, where it is missing.
      have added : TopShows (events ++ row.recordEvents events) placed := by
        have missing_iff : (root.get top).isNone ↔ top ∉ events.map TopEvent.name := by
          rw [← shown.get_isSome_iff]
          cases root.get top <;> simp
        rw [same, Row.recordEvents, named]
        by_cases adds : top ≠ "" ∧ (root.get top).isNone
        · rw [if_pos adds, if_pos ⟨adds.1, missing_iff.mp adds.2⟩]
          exact shown.event (.addRecord (UnicodeTables.toLowercase top)) rfl
        · rw [if_neg adds, if_neg fun both => adds ⟨both.1, missing_iff.mpr both.2⟩, List.append_nil]
          exact shown
      have kept : placed.kind = root.kind := by
        rw [same]
        split_ifs
        · exact Node.set_child_kind ..
        · rfl
      refine ⟨rfl, ?_, ?_⟩
      · rw [Row.topEvents, ← List.append_assoc]
        exact added.hierarchy created
      · rw [← kept]
        exact hierarchy_root_kind created

/-- All rows. -/
theorem decode_lines_top {columns lines : List String} (shown : TopShows events root)
    (decoded : record.decodeLines columns offset root previous lines = some (.ok result)) :
    ∃ entries, lines.mapM (DecodeDefinitionEntry.fromLine columns) = .ok entries ∧
      TopShows (Layout.topEvents record offset events (Layout.resolveAll previous entries)) result ∧
      (result.kind = .root ↔ root.kind = .root ∧
        ∀ row ∈ Layout.resolveAll previous entries, row.path = [] → ¬ row.Readable record offset) := by
  induction lines generalizing root previous events with
  | nil =>
      cases decoded
      exact ⟨[], rfl, shown, by simp [Layout.resolveAll]⟩
  | cons line rest ih =>
      rw [Record.decodeLines] at decoded
      cases read : DecodeDefinitionEntry.fromLine columns line with
      | error error => simp [read] at decoded
      | ok entry =>
          simp only [read] at decoded
          by_cases unnamed : entry.name = ""
          · rw [if_pos unnamed] at decoded
            obtain ⟨entries, parsed, restShown, kind⟩ := ih shown decoded
            refine ⟨entry :: entries, ?_, ?_⟩
            · rw [List.mapM_cons, read, parsed]
              rfl
            · rw [Layout.resolveAll, if_pos unnamed]
              exact ⟨restShown, kind⟩
          · rw [if_neg unnamed] at decoded
            cases stepped : record.decodeEntry offset root previous entry with
            | none => simp [stepped] at decoded
            | some state =>
                obtain ⟨next, path⟩ := state
                simp only [stepped] at decoded
                obtain ⟨rfl, nextShown, nextKind⟩ := decode_entry_top shown stepped
                obtain ⟨entries, parsed, restShown, kind⟩ := ih nextShown decoded
                refine ⟨entry :: entries, ?_, ?_⟩
                · rw [List.mapM_cons, read, parsed]
                  rfl
                · rw [Layout.resolveAll, if_neg unnamed]
                  refine ⟨restShown, ?_⟩
                  rw [kind, nextKind, List.forall_mem_cons, not_and, and_assoc]

end Decoding

/-! ## Records at the top level -/

/-- The shape that the analyzer and the export rely on. -/
structure Node.RecordsOnTop (root : Node) : Prop where
  isRoot : root.kind = .root
  records : ∀ entry ∈ root.children, entry.2.kind = .record

theorem TopShows.records_iff {events : List TopEvent} {root : Node} (shown : TopShows events root) :
    (∀ entry ∈ root.children, entry.2.kind = .record) ↔
      ∀ event ∈ events, ∃ name, TopEvent.last events event.name = some (.addRecord name) := by
  have shows_record (name : String) (child : Node) (stored : root.get name = some child) :
      child.kind = .record ↔ ∃ added, TopEvent.last events name = some (.addRecord added) := by
    have same := shown.shows name
    rw [stored, Option.map_some] at same
    obtain ⟨event, last, isRecord⟩ := Option.map_eq_some_iff.mp same.symm
    rw [last]
    cases event <;> simp_all [TopEvent.isRecord]
  constructor
  · intro records event member
    have present := shown.get_isSome_iff.mpr (List.mem_map_of_mem (f := TopEvent.name) member)
    obtain ⟨child, stored⟩ := Option.isSome_iff_exists.mp present
    exact (shows_record _ child stored).mp (records _ (OrderedMap.mem_of_lookup stored))
  · rintro lasts ⟨name, child⟩ member
    have stored : root.get name = some child := OrderedMap.lookup_of_mem shown.sorted member
    have present : name ∈ events.map TopEvent.name := shown.get_isSome_iff.mp (by rw [stored]; rfl)
    obtain ⟨event, known, rfl⟩ := List.mem_map.mp present
    exact (shows_record _ child stored).mpr (lasts event known)

/-- A decoded layout has records at the top exactly when no row with an empty
path is readable and the last event at every name adds a record. -/
theorem Record.decode_records_on_top_iff [UnicodeTables] (record : Record) (layout : List Byte) (offset : Nat)
    (root : Node) (decoded : record.decodeWithCsv layout offset = some (.ok root)) :
    root.RecordsOnTop ↔
      (∀ row ∈ Layout.parsedRows layout, row.path = [] → ¬ row.Readable record offset) ∧
      ∀ event ∈ Layout.topEvents record offset [] (Layout.parsedRows layout),
        ∃ name, TopEvent.last (Layout.topEvents record offset [] (Layout.parsedRows layout)) event.name =
          some (.addRecord name) := by
  have shape_iff : root.RecordsOnTop ↔
      root.kind = .root ∧ ∀ entry ∈ root.children, entry.2.kind = .record :=
    ⟨fun shape => ⟨shape.isRoot, shape.records⟩, fun both => ⟨both.1, both.2⟩⟩
  rw [shape_iff, Layout.parsedRows]
  rw [decodeWithCsv] at decoded
  cases utf8 : Text.fromUtf8 layout with
  | none => simp [utf8] at decoded
  | some csv =>
      simp only [utf8] at decoded ⊢
      cases split : Text.lines csv with
      | nil =>
          simp only [split] at decoded ⊢
          cases decoded
          simp [Layout.topEvents, Node.newRoot]
      | cons header lines =>
          simp only [split] at decoded ⊢
          obtain ⟨entries, parsed, shown, kind⟩ := decode_lines_top TopShows.start decoded
          simp only [parsed]
          rw [shown.records_iff, kind]
          exact and_congr_left fun _ => ⟨fun both => both.2, fun unread => ⟨rfl, unread⟩⟩

/-- The row of the record itself is as large as the record may get, and is not readable. -/
theorem large_record_row_on_top :
    letI := UnicodeTables.ascii
    ∃ root, Record.decodeWithCsv { data := [0x80, 0x81] }
        "name;offset;size;description\nfoo;0;128;\n.aaa;8;8;".toUTF8.toList 0 = some (.ok root) ∧
      root.RecordsOnTop := by
  let _ := UnicodeTables.ascii
  let record : Record := { data := [0x80, 0x81] }
  let layout := "name;offset;size;description\nfoo;0;128;\n.aaa;8;8;".toUTF8.toList
  have succeeds : ((record.decodeWithCsv layout 0).bind Except.toOption).isSome := by decide +kernel
  obtain ⟨root, found⟩ := Option.isSome_iff_exists.mp succeeds
  have decoded : record.decodeWithCsv layout 0 = some (.ok root) := by
    obtain ⟨result, whole, ok⟩ := Option.bind_eq_some_iff.mp found
    cases result with
    | error error => cases ok
    | ok tree =>
        cases ok
        exact whole
  refine ⟨root, decoded, (record.decode_records_on_top_iff layout 0 root decoded).mpr ⟨?_, ?_⟩⟩
  · decide +kernel
  · have events : Layout.topEvents record 0 [] (Layout.parsedRows layout) = [.addRecord "foo"] := by
      decide +kernel
    rw [events]
    intro event member
    cases List.mem_singleton.mp member
    exact ⟨"foo", rfl⟩

/-- The row of the record itself is readable, and the record becomes a field. -/
theorem small_record_row_hides_record :
    ¬ ∀ (_ : UnicodeTables) (record : Record) (layout : List Byte) (offset : Nat) (root : Node),
      record.decodeWithCsv layout offset = some (.ok root) → root.RecordsOnTop := by
  intro shaped
  let _ := UnicodeTables.ascii
  let record : Record := { data := [0x42, 0, 0, 0] }
  let layout := "name;offset;size;description;bitfield\nmca;0;32;;0\nmca.foo;0;32;;0".toUTF8.toList
  have kinds : ((record.decodeWithCsv layout 0).bind Except.toOption).map
      (fun root => root.children.map fun entry => entry.2.kind) = some [.field 0x42] := by decide +kernel
  obtain ⟨root, found, fields⟩ := Option.map_eq_some_iff.mp kinds
  obtain ⟨result, whole, ok⟩ := Option.bind_eq_some_iff.mp found
  cases result with
  | error error => cases ok
  | ok tree =>
      cases ok
      have records := (shaped .ascii record layout 0 root whole).records
      have all : ∀ kind ∈ root.children.map (fun entry => entry.2.kind), kind = .record := by
        intro kind member
        obtain ⟨entry, stored, rfl⟩ := List.mem_map.mp member
        exact records entry stored
      rw [fields] at all
      cases all _ List.mem_cons_self

end Crashlog
