import Crashlog.DecodeHeaders
import Crashlog.Session
import Crashlog.Shape

/-!
# The trees that are decoded

Whatever is decoded, with or without collateral, has the shape of a document:
its names come from the decoder, from the collateral and from the counter of a
merge. The reserved name of the JSON is not among them, unless the collateral
has it, and then the registers are read back from the JSON of what was decoded.
-/

namespace Crashlog

open Bytes

namespace Node

/-- A tree that is handed out: a root in shape. -/
structure Document (allowed : String → Prop) (node : Node) : Prop where
  shaped : node.Shaped allowed
  isRoot : node.kind = .root

variable [UnicodeTables] {allowed : String → Prop}

omit [UnicodeTables] in
theorem Document.new : newRoot.Document allowed := ⟨.childless rfl, rfl⟩

theorem Document.merge (admits : Admits allowed) {self other after : Node} (document : self.Document allowed)
    (shaped : other.Shaped allowed) (merged : self.merge other = some after) : after.Document allowed := by
  obtain ⟨afterShaped, _, kind⟩ := merge_shaped admits document.shaped shaped merged
  exact ⟨afterShaped, kind.trans document.isRoot⟩

/-! ## Header trees -/

/-- Adding a new node under a name of the decoder. -/
theorem Shaped.add_plain (admits : Admits allowed) {node child : Node} (shaped : node.Shaped allowed) {text : String}
    (plain : Text.PlainName text) (named : child.name = UnicodeTables.toLowercase text)
    (notRoot : child.kind ≠ .root) (childShaped : child.Shaped allowed) : (node.add child).Shaped allowed :=
  shaped.add (named ▸ admits.plain text plain) notRoot childShaped

theorem Shaped.add_field (admits : Admits allowed) {node : Node} (shaped : node.Shaped allowed) {text : String}
    (plain : Text.PlainName text) (value : UInt64) : (node.add (newField text value)).Shaped allowed :=
  shaped.add_plain admits plain rfl (by simp [newField]) (.childless rfl)

theorem add_common_fields_shaped (admits : Admits allowed) {node : Node} (shaped : node.Shaped allowed)
    (timestamp : UInt64) (agentVersion reason : UInt32) :
    (node.addCommonFields timestamp agentVersion reason).Shaped allowed :=
  ((shaped.add_field admits (by decide) _).add_field admits (by decide) _).add_field admits (by decide) _

theorem completion_status_section_shaped (admits : Admits allowed) (completionStatus : UInt32)
    (collectionComplete : Bool) :
    (completionStatusSection completionStatus collectionComplete).Shaped allowed :=
  ((Shaped.childless rfl).add_field admits (by decide) _).add_field admits (by decide) _

theorem add_header_type_shaped (admits : Admits allowed) {node : Node} (shaped : node.Shaped allowed)
    (headerType : HeaderType) :
    (node.addHeaderType headerType).Shaped allowed ∧ (node.addHeaderType headerType).kind = node.kind := by
  have common := add_common_fields_shaped admits shaped
  have completion (completionStatus : UInt32) (collectionComplete : Bool) {node : Node}
      (shaped : node.Shaped allowed) :
      (node.add (completionStatusSection completionStatus collectionComplete)).Shaped allowed := by
    have plain : Text.PlainName "completion_status" := by decide
    refine shaped.add_plain admits plain rfl ?_ (completion_status_section_shaped admits _ _)
    simp [completionStatusSection, newSection, Node.add]
  cases headerType with
  | type0 => exact ⟨shaped, rfl⟩
  | type1 => exact ⟨shaped, rfl⟩
  | type2 timestamp agentVersion reason => exact ⟨common _ _ _, rfl⟩
  | type3 timestamp agentVersion reason completionStatus collectionComplete =>
      exact ⟨completion _ _ (common _ _ _), rfl⟩
  | type4 timestamp agentVersion reason whoami misc =>
      exact ⟨((common _ _ _).add_field admits (by decide) _).add_field admits (by decide) _, rfl⟩
  | type5 timestamp agentVersion reason completionStatus collectionComplete errorStatus =>
      exact ⟨completion _ _ ((common _ _ _).add_field admits (by decide) _), rfl⟩
  | type6 timestamp agentVersion reason dieId socketId completionStatusSize completionStatus collectionComplete =>
      have fold : ∀ (statuses : List (UInt32 × Nat)) (node : Node), node.Shaped allowed →
          (statuses.foldl (fun node status =>
            node.add (newField ("completion_status" ++ toString status.2) status.1.toUInt64)) node).Shaped allowed ∧
          (statuses.foldl (fun node status =>
            node.add (newField ("completion_status" ++ toString status.2) status.1.toUInt64)) node).kind = node.kind := by
        intro statuses
        induction statuses with
        | nil => exact fun _ shaped => ⟨shaped, rfl⟩
        | cons status rest ih =>
            intro node shaped
            exact ih _ (shaped.add_field admits (Text.plain_name_append_number (by decide) status.2) _)
      have plain : Text.PlainName "die_skt_info" := by decide
      have info : ((((((newSection "die_skt_info").add (newField "die_id" dieId.toUInt64)).add
          (newField "socket_id" socketId.toUInt64)).add
          (newField "completion_status_size" completionStatusSize.toUInt64)).add
          (newField "record_collection_completed" collectionComplete.toUInt64))).Shaped allowed :=
        ((((Shaped.childless rfl).add_field admits (by decide) _).add_field admits (by decide) _).add_field
          admits (by decide) _).add_field admits (by decide) _
      exact fold _ _ ((common _ _ _).add_plain admits plain rfl (by simp [newSection, Node.add]) info)
  | type0LegacyServer timestamp agentVersion reason dieId socketId completionStatus collectionComplete =>
      exact ⟨((((common _ _ _).add_field admits (by decide) _).add_field admits (by decide) _).add_field
        admits (by decide) _).add_field admits (by decide) _, rfl⟩

/-- The header is the section `hdr`. -/
theorem from_header_fits (admits : Admits allowed) (header : Header) :
    Fits allowed "hdr" (fromHeader header) ∧ (fromHeader header).Shaped allowed := by
  have version : (fromVersion header.version).Shaped allowed := by
    have top (value : UInt64) : (newField "version" value).Shaped allowed := .childless rfl
    exact ((((top _).add_field admits (by decide) _).add_field admits (by decide) _).add_field
      admits (by decide) _).add_field admits (by decide) _
  have size : (fromRecordSize header.size).Shaped allowed := by
    have top : (newSection "record_size").Shaped allowed := .childless rfl
    exact (top.add_field admits (by decide) _).add_field admits (by decide) _
  have versionName : Text.PlainName "version" := by decide
  have sizeName : Text.PlainName "record_size" := by decide
  have withVersion : ((newSection "hdr").add (fromVersion header.version)).Shaped allowed :=
    (Shaped.childless rfl).add_plain admits versionName rfl (by simp [fromVersion, newField, add]) version
  obtain ⟨shaped, kind⟩ := add_header_type_shaped admits
    (withVersion.add_plain admits sizeName rfl (by simp [fromRecordSize, newSection, add]) size) header.headerType
  have lowercase : UnicodeTables.toLowercase "hdr" = "hdr" := by
    rw [lowercase_ascii _ (by decide)]
    decide
  refine ⟨⟨from_header_name header, lowercase ▸ admits.plain "hdr" (by decide), ?_⟩, shaped⟩
  rw [fromHeader, kind]
  simp [newSection, add]

end Node

/-! ## Records -/

namespace Record

open Node

variable [UnicodeTables] {allowed : String → Prop} {record : Record} {root : Node}

theorem decode_header_document (admits : Admits allowed) (record : Record) :
    record.decodeHeader.Document allowed := by
  refine ⟨?_, rfl⟩
  have listed : ∀ name ∈ ["PMC", "PMC_FW_Trace", "Punit", "PCORE", "ECORE", "UNCORE", "PMC_TRACE", "TCSS",
      "PMC_RST", "PCODE", "CRASHLOG_AGENT", "BOX", "MCA", "record"], Text.PlainName name := by decide
  have typeName := listed _ record.record_type_cases
  obtain ⟨fits, shaped⟩ := from_header_fits admits record.header
  have inner : ((newRecord (record.header.recordType.toOption.getD "record")).add
      (fromHeader record.header)).Shaped allowed :=
    (Shaped.childless rfl).add (fits.named ▸ fits.allowed) fits.notRoot shaped
  exact Document.new.shaped.add_plain admits typeName rfl (by simp [newRecord, Node.add]) inner

/-- A record under a location whose names are allowed. -/
theorem put_under_document (admits : Admits allowed) {customRoot : Option String} {recordNode : Node}
    (names : ∀ location, customRoot = some location →
      ∀ name ∈ Text.split '.' location, allowed (UnicodeTables.toLowercase name))
    (shaped : recordNode.Shaped allowed) (put : putUnder customRoot recordNode = some root) :
    root.Document allowed := by
  cases customRoot with
  | none => exact Document.new.merge admits shaped put
  | some location =>
      obtain ⟨rootShaped, _, kind⟩ := create_hierarchy_shaped Document.new.shaped (names location rfl)
        (keeps_merge admits shaped) put
      exact ⟨rootShaped, kind (Text.split_ne_nil _ _)⟩

/-- The numbered processors and dies are names of the decoder. -/
theorem die_path_names (admits : Admits allowed) (socketId dieId : Nat) :
    ∀ name ∈ ["processors", "cpu" ++ toString socketId, "die" ++ toString dieId],
      allowed (UnicodeTables.toLowercase name) := by
  rw [List.forall_mem_cons, List.forall_mem_cons, List.forall_mem_singleton]
  refine ⟨admits.plain _ (by decide), admits.plain _ ?_, admits.plain _ ?_⟩
  · exact Text.plain_name_append_number (by decide) socketId
  · exact Text.plain_name_append_number (by decide) dieId

theorem root_path_names (admits : Admits allowed) {location : String} (at_ : record.getRootPath = some location) :
    ∀ name ∈ Text.split '.' location, allowed (UnicodeTables.toLowercase name) := by
  have split := record.root_path_location
  rw [at_, Option.map_some, Option.getD_some] at split
  rcases record.location_cases with none | ⟨socketId, dieId, die⟩
  · exact absurd (split.symm.trans none) (Text.split_ne_nil _ _)
  · rw [← split, die]
    exact die_path_names admits socketId dieId

theorem decode_without_cm_document (admits : Admits allowed) (decoded : record.decodeWithoutCm = some root) :
    root.Document allowed := by
  rw [decode_without_cm_put] at decoded
  exact put_under_document admits (fun _ => root_path_names admits) (decode_header_document admits record).shaped decoded

end Record

namespace CrashLog

open Node

variable [UnicodeTables] {allowed : String → Prop}

/-- Merging the documents of the records, one after the other. -/
theorem fold_document (admits : Admits allowed) {decodeRecord : Record → Option Node}
    (decoded : ∀ record root, decodeRecord record = some root → root.Document allowed) {records : List Record}
    {start root : Node} (document : start.Document allowed)
    (merged : records.foldlM (fun root record => (decodeRecord record).bind root.merge) start = some root) :
    root.Document allowed := by
  induction records generalizing start with
  | nil =>
      cases merged
      exact document
  | cons record rest ih =>
      rw [List.foldlM_cons] at merged
      obtain ⟨between, step, others⟩ := Option.bind_eq_some_iff.mp merged
      obtain ⟨own, ran, into⟩ := Option.bind_eq_some_iff.mp step
      exact ih (document.merge admits (decoded record own ran).shaped into) others

theorem decode_without_cm_document (admits : Admits allowed) {crashlog : CrashLog} {root : Node}
    (decoded : crashlog.decodeWithoutCm = some root) : root.Document allowed := by
  rw [decodeWithoutCm, foldlM_regions mergeRecord crashlog] at decoded
  exact fold_document admits (fun _ _ => Record.decode_without_cm_document admits) .new decoded

/-- Every register that is decoded without collateral is read back from the JSON. -/
theorem headers_json_registers (crashlog : CrashLog) (root : Node)
    (decoded : crashlog.decodeWithoutCm = some root) :
    root.Ordered ∧ root.Keyed ∧ ∀ path, root.serialize.getValueByPath path = root.getValueByPath path := by
  have document := decode_without_cm_document admits_unreserved decoded
  exact ⟨document.shaped.ordered, document.shaped.keyed, document.shaped.json_registers document.isRoot⟩

omit [UnicodeTables] in
/-- The header of one machine check record. -/
theorem mca_headers_json_registers :
    ∃ root, @decodeWithoutCm .ascii { regions := [{ records := [mcaRecord] }] } = some root ∧ root.Ordered ∧
      root.Keyed ∧ ∀ path, root.serialize.getValueByPath path = root.getValueByPath path := by
  obtain ⟨root, decoded⟩ : ∃ root, @decodeWithoutCm .ascii { regions := [{ records := [mcaRecord] }] } = some root :=
    Option.isSome_iff_exists.mp (by decide)
  exact ⟨root, decoded, @headers_json_registers .ascii _ root decoded⟩

end CrashLog

/-! ## Names from the collateral -/

/-- The names of the registers in a layout. -/
def Layout.NamesIn [UnicodeTables] (allowed : String → Prop) (layout : Layout) : Prop :=
  ∀ line ∈ layout.lines, ∀ entry, DecodeDefinitionEntry.fromLine layout.columns line = .ok entry →
    ∀ segment ∈ Text.split '.' entry.name, allowed (UnicodeTables.toLowercase segment)

/-- The names that decoding takes from the collateral. -/
structure CollateralManager.NamesIn [UnicodeTables] (allowed : String → Prop) (cm : CollateralManager) : Prop where
  layouts : ∀ header path layout csv, cm.answer (.header header path) = .ok layout →
    Text.fromUtf8 layout = some csv → (Layout.ofText csv).NamesIn allowed
  dies : ∀ header die, Header.die header cm = some die →
    ∀ segment ∈ Text.split '.' die, allowed (UnicodeTables.toLowercase segment)

theorem CollateralManager.names_in_all [UnicodeTables] (cm : CollateralManager) : cm.NamesIn fun _ => True where
  layouts _ _ _ _ _ _ _ _ _ _ _ _ := trivial
  dies _ _ _ _ _ := trivial

theorem follow_segments_names {allowed : String → Prop} {segments path : List String}
    (each : ∀ name ∈ path, allowed name) (more : ∀ name ∈ segments, allowed name) :
    ∀ name ∈ segments.foldl followSegment path, allowed name := by
  induction segments generalizing path with
  | nil => exact each
  | cons segment rest ih =>
      rw [List.forall_mem_cons] at more
      refine ih ?_ more.2
      intro name member
      rw [followSegment] at member
      split_ifs at member
      · exact each name (List.mem_of_mem_dropLast member)
      · rcases List.mem_append.mp member with old | new
        · exact each name old
        · rw [List.mem_singleton.mp new]
          exact more.1

namespace Record

open Node

variable [UnicodeTables] {allowed : String → Prop} {record : Record} {offset : Nat} {root after : Node}

/-- An entry labels one node; what it adds is named in the entry or in the path so far. -/
theorem decode_entry_shaped {path last : List String} {entry : DecodeDefinitionEntry}
    (shaped : root.Shaped allowed) (each : ∀ name ∈ path, allowed (UnicodeTables.toLowercase name))
    (names : ∀ segment ∈ Text.split '.' entry.name, allowed (UnicodeTables.toLowercase segment))
    (decoded : record.decodeEntry offset root path entry = some (after, last)) :
    after.Shaped allowed ∧ ∀ name ∈ last, allowed (UnicodeTables.toLowercase name) := by
  unfold decodeEntry at decoded
  cases split : Text.split '.' entry.name with
  | nil => exact absurd split (Text.split_ne_nil _ _)
  | cons top segments =>
      rw [split] at decoded names
      rw [List.forall_mem_cons] at names
      obtain ⟨built, created, same⟩ := Option.map_eq_some_iff.mp decoded
      cases same
      have start : ∀ name ∈ (if top = "" then path else [top]), allowed (UnicodeTables.toLowercase name) := by
        split_ifs
        · exact each
        · rw [List.forall_mem_singleton]
          exact names.1
      have followed := follow_segments_names start names.2
      have topped : (if top ≠ "" ∧ (root.get top).isNone then root.add (newRecord top) else root).Shaped allowed := by
        split_ifs
        · exact shaped.add names.1 (by simp [newRecord]) (.childless rfl)
        · exact shaped
      refine ⟨(create_hierarchy_shaped topped followed ?_ created).1, followed⟩
      rintro node labelled nodeShaped label
      cases label
      refine ⟨nodeShaped.of_children rfl, rfl, fun notRoot => ?_⟩
      change (record.fillLabel offset entry node.label).kind ≠ .root
      rw [fillLabel]
      cases record.readField ((offset * 8 + entry.offset) % 2 ^ 64) entry.size with
      | some value => simp
      | none => exact notRoot

theorem decode_lines_shaped {columns lines path : List String}
    (shaped : root.Shaped allowed) (each : ∀ name ∈ path, allowed (UnicodeTables.toLowercase name))
    (names : Layout.NamesIn allowed { columns, lines })
    (decoded : record.decodeLines columns offset root path lines = some (.ok after)) : after.Shaped allowed := by
  induction lines generalizing root path with
  | nil =>
      cases decoded
      exact shaped
  | cons line rest ih =>
      have here := names line List.mem_cons_self
      have later : Layout.NamesIn allowed { columns, lines := rest } :=
        fun other member => names other (List.mem_cons_of_mem _ member)
      rw [decodeLines] at decoded
      split at decoded
      · cases decoded
      · rename_i entry read
        split_ifs at decoded
        · exact ih shaped each later decoded
        · split at decoded
          · cases decoded
          · rename_i between next step
            obtain ⟨betweenShaped, follows⟩ := decode_entry_shaped shaped each (here entry read) step
            exact ih betweenShaped follows later decoded

theorem decode_with_csv_shaped {layout : List Byte}
    (names : ∀ csv, Text.fromUtf8 layout = some csv → (Layout.ofText csv).NamesIn allowed)
    (decoded : record.decodeWithCsv layout offset = some (.ok after)) : after.Shaped allowed := by
  unfold decodeWithCsv at decoded
  split at decoded
  · cases decoded
  · rename_i csv read
    have own := names csv read
    rw [Layout.ofText] at own
    split at decoded
    · cases decoded
      exact .childless rfl
    · rename_i header lines split
      rw [split] at own
      exact decode_lines_shaped (.childless rfl) (List.forall_mem_nil _) own decoded

namespace Straight

variable {start : CollateralManager} {result : Except Error Node} {decodeDef : String}

/-- What a step of the decoder may return: a document, or an error. -/
def Documents (allowed : String → Prop) (result : Option (Except Error Node)) : Prop :=
  ∀ root, result = some (.ok root) → root.Document allowed

theorem decode_with_decode_def_documents (admits : Admits allowed) (names : start.NamesIn allowed) :
    Documents allowed (decodeWithDecodeDef start record decodeDef offset) := by
  intro root decoded
  unfold decodeWithDecodeDef at decoded
  split at decoded
  · cases decoded
  · unfold decodeWithPaths at decoded
    split at decoded
    · cases decoded
    · rename_i layout found
      obtain ⟨path, _, held⟩ := List.exists_of_findSome?_eq_some found
      have answered : start.answer (.header record.header (path.push decodeDef)) = .ok layout := by
        cases answer : start.answer (.header record.header (path.push decodeDef)) with
        | error error =>
            rw [answer] at held
            cases held
        | ok item =>
            rw [answer] at held
            cases held
            rfl
      unfold decodeLayout at decoded
      split at decoded
      · cases decoded
      · cases decoded
      · rename_i tree laidOut
        obtain ⟨merged, into, same⟩ := Option.map_eq_some_iff.mp decoded
        cases same
        exact Document.new.merge admits
          (decode_with_csv_shaped (fun csv => names.layouts _ _ _ csv answered) laidOut) into

theorem merge_extension_document (admits : Admits allowed) (names : start.NamesIn allowed)
    {decodeDefs : List String} (document : root.Document allowed)
    (merged : mergeExtension start record offset root decodeDefs = some after) : after.Document allowed := by
  induction decodeDefs with
  | nil =>
      cases merged
      exact document
  | cons decodeDef rest ih =>
      obtain ⟨decoded, step, others⟩ := Option.bind_eq_some_iff.mp merged
      cases decoded with
      | error error => exact ih others
      | ok extension =>
          exact document.merge admits (decode_with_decode_def_documents admits names extension step).shaped others

theorem extend_document (admits : Admits allowed) (names : start.NamesIn allowed)
    (document : root.Document allowed) (extended : extend start record root = some after) :
    after.Document allowed := by
  unfold extend at extended
  split at extended
  · exact merge_extension_document admits names document extended
  · cases extended
    exact document

/-- The modules, cores and threads are numbered. -/
theorem core_hierarchy_names (admits : Admits allowed) (subsection : Node) :
    ∀ name ∈ coreHierarchy subsection, allowed (UnicodeTables.toLowercase name) := by
  intro name member
  obtain ⟨level, listed, made⟩ := List.mem_filterMap.mp member
  obtain ⟨id, _, rfl⟩ := Option.map_eq_some_iff.mp made
  have plain : ∀ level ∈ ["module", "core", "thread"], Text.PlainName level := by decide
  exact admits.plain _ (Text.plain_name_append_number (plain level listed) id.toNat)

theorem decode_subsections_documents (admits : Admits allowed) (names : start.NamesIn allowed) {sect : Node}
    (shaped : sect.Shaped allowed) (permitted : allowed sect.name) (notRoot : sect.kind ≠ .root)
    (subsections : List String) : Documents allowed (decodeSubsections start record sect subsections) := by
  intro root decoded
  induction subsections with
  | nil => cases decoded
  | cons subsectionName rest ih =>
      obtain ⟨laidOut, step, others⟩ := Option.bind_eq_some_iff.mp decoded
      cases laidOut with
      | error error => exact ih others
      | ok base =>
          obtain ⟨extended, extension, found⟩ := Option.bind_eq_some_iff.mp others
          have document := extend_document admits names
            (decode_with_decode_def_documents admits names base step) extension
          cases subsection : extended.get subsectionName with
          | none =>
              rw [subsection] at found
              exact ih found
          | some subsection' =>
              rw [subsection] at found
              obtain ⟨built, created, same⟩ := Option.map_eq_some_iff.mp found
              cases same
              obtain ⟨builtShaped, stays, _⟩ := create_hierarchy_shaped shaped
                (core_hierarchy_names admits subsection') (keeps_merge admits document.shaped) created
              exact ⟨Document.new.shaped.add (stays.name ▸ permitted) (stays.notRoot notRoot) builtShaped, rfl⟩

theorem decode_as_core_record_documents (admits : Admits allowed) (names : start.NamesIn allowed) :
    Documents allowed (decodeAsCoreRecord start record) := by
  unfold decodeAsCoreRecord
  have listed := record.record_type_cases
  cases known : record.header.recordType with
  | error error =>
      intro root decoded
      cases decoded
  | ok recordType =>
      rw [known] at listed
      have plain : ∀ name ∈ ["PMC", "PMC_FW_Trace", "Punit", "PCORE", "ECORE", "UNCORE", "PMC_TRACE", "TCSS",
          "PMC_RST", "PCODE", "CRASHLOG_AGENT", "BOX", "MCA", "record"], Text.PlainName name := by decide
      exact decode_subsections_documents admits names (.childless rfl) (admits.plain _ (plain _ listed))
        (by simp [newRecord]) _

theorem root_path_using_cm_names (admits : Admits allowed) (names : start.NamesIn allowed) {location : String}
    (at_ : record.getRootPathUsingCm start = some location) :
    ∀ name ∈ Text.split '.' location, allowed (UnicodeTables.toLowercase name) := by
  have named (header : Header) (location : String) (at_ : header.getRootPathUsingCm start = some location) :
      ∀ name ∈ Text.split '.' location, allowed (UnicodeTables.toLowercase name) := by
    rw [Header.root_path_using_cm_eq] at at_
    obtain ⟨die, known, rfl⟩ := Option.map_eq_some_iff.mp at_
    rw [Header.split_location, List.forall_mem_cons, List.forall_mem_cons]
    refine ⟨admits.plain _ (by decide), ?_, names.dies header die known⟩
    exact admits.plain _ (Text.plain_name_append_number (by decide) _)
  unfold getRootPathUsingCm at at_
  split at at_
  · rename_i customRoot own
    cases at_
    exact named _ _ own
  · split at at_
    · rename_i parentCustomRoot above
      cases at_
      obtain ⟨parent, _, own⟩ := Option.bind_eq_some_iff.mp above
      exact named _ _ own
    · exact root_path_names admits at_

theorem decode_document (admits : Admits allowed) (names : start.NamesIn allowed)
    (decoded : decode start record = some root) : root.Document allowed := by
  obtain ⟨laidOut, step, put⟩ := Option.bind_eq_some_iff.mp decoded
  have documents : Documents allowed (some laidOut) := by
    rw [← step]
    split_ifs
    · exact decode_as_core_record_documents admits names
    · exact decode_with_decode_def_documents admits names
  refine put_under_document admits (fun _ => root_path_using_cm_names admits names) ?_ put
  cases laidOut with
  | error error => exact (decode_header_document admits record).shaped
  | ok node => exact (documents node rfl).shaped

end Straight

end Record

namespace CollateralManager

open Node

variable [UnicodeTables] {allowed : String → Prop} {start cm : CollateralManager}

/-- Whatever was decoded before with the manager. -/
theorem Serves.decode_document (serves : Serves start cm) (admits : Admits allowed) (names : start.NamesIn allowed)
    {crashlog : CrashLog} {root : Node} {after : CollateralManager}
    (decoded : crashlog.decode cm = some (root, after)) : root.Document allowed :=
  CrashLog.fold_document admits (fun _ _ => Record.Straight.decode_document admits names) .new
    (crashlog.decode_stateless.value_eq serves decoded)

theorem Serves.session_documents (serves : Serves start cm) (admits : Admits allowed) (names : start.NamesIn allowed)
    {requests : List Request} {responses : List Response} {after : CollateralManager}
    (ran : threadAll serve requests cm = some (responses, after)) :
    ∀ root, Response.tree root ∈ responses → root.Document allowed := by
  induction requests generalizing cm responses with
  | nil =>
      cases ran
      exact fun root member => absurd member List.not_mem_nil
  | cons request rest ih =>
      obtain ⟨⟨response, next⟩, first, others⟩ := Option.bind_eq_some_iff.mp ran
      obtain ⟨⟨later, last⟩, below, same⟩ := Option.bind_eq_some_iff.mp others
      cases same
      intro root member
      rcases List.mem_cons.mp member with rfl | tail
      · cases request with
        | decode crashlog =>
            obtain ⟨pair, decoded, same⟩ := Option.map_eq_some_iff.mp first
            cases same
            exact serves.decode_document admits names decoded
        | itemWithPvs pvss path => cases first
        | itemWithHeader header path => cases first
      · exact ih ((serve_stateless request).kept cm serves response next first) below root tail

/-- Every tree of a session is in order and under its own names, and its
registers are read back from its JSON where the collateral does not use the
reserved name. -/
theorem session_json_registers (tree : CollateralTree) (targetInfo : UInt32 → Option TargetInfo)
    (requests : List Request) (responses : List Response) (cm : CollateralManager) (root : Node)
    (ran : threadAll serve requests (fresh tree targetInfo) = some (responses, cm))
    (member : Response.tree root ∈ responses) :
    root.Ordered ∧ root.Keyed ∧ ((fresh tree targetInfo).NamesIn (· ≠ "_value") →
      ∀ path, root.serialize.getValueByPath path = root.getValueByPath path) := by
  have serves := fresh_serves tree targetInfo
  have any := serves.session_documents admits_all (names_in_all _) ran root member
  refine ⟨any.shaped.ordered, any.shaped.keyed, fun names => ?_⟩
  have document := serves.session_documents admits_unreserved names ran root member
  exact document.shaped.json_registers document.isRoot

end CollateralManager

/-! ## One layout -/

namespace CollateralManager

open CrashLog Node

def mcaLayout : List Byte := "name;offset;size\nmca.status;0;8".toList.map fun c => UInt8.ofNat c.toNat

/-- The same layout for everything, and a product without dies. -/
def mcaManager : CollateralManager :=
  fresh { get := fun _ _ => .ok mcaLayout } fun _ =>
    some { product := "XYZ", productId := "0x7a", variant := "all", dieId := fun _ => none }

theorem mca_layout_answered {call : Call} {layout : List Byte} (answered : mcaManager.answer call = .ok layout) :
    layout = mcaLayout := by
  obtain ⟨lookup, _, held⟩ := answer_eq_ok_iff.mp answered
  have found : Lookup.answer mcaManager.tree lookup = .ok mcaLayout := by
    rw [Lookup.answer]
    cases lookup.meaning <;> rfl
  exact Except.ok.inj (held.symm.trans found)

theorem mca_names : @NamesIn .ascii (· ≠ "_value") mcaManager := by
  refine @NamesIn.mk .ascii _ _ ?_ ?_
  · intro header path layout csv answered read line member entry cells segment inside
    have text : Text.fromUtf8 mcaLayout = some "name;offset;size\nmca.status;0;8" := by decide +kernel
    rw [mca_layout_answered answered, text] at read
    cases read
    have lines : (Layout.ofText "name;offset;size\nmca.status;0;8").lines = ["mca.status;0;8"] := by decide
    rw [lines, List.mem_singleton] at member
    subst member
    have row : DecodeDefinitionEntry.fromLine (Layout.ofText "name;offset;size\nmca.status;0;8").columns
        "mca.status;0;8" = .ok { name := "mca.status", offset := 0, size := 8 } := by rfl
    rw [row] at cells
    cases cells
    revert segment
    decide
  · intro header die known
    obtain ⟨dieId, _, named⟩ := Option.bind_eq_some_iff.mp known
    cases named

/-- The machine check record decoded with that layout. -/
theorem mca_session_json_registers :
    ∃ responses cm root, @threadAll CollateralManager Request Response (@serve .ascii)
        [.decode { regions := [{ records := [mcaRecord] }] }] mcaManager = some (responses, cm) ∧
      Response.tree root ∈ responses ∧ root.Ordered ∧ root.Keyed ∧
      ∀ path, root.serialize.getValueByPath path = root.getValueByPath path := by
  have returns : (@CrashLog.decode .ascii { regions := [{ records := [mcaRecord] }] } mcaManager).isSome := by
    decide +kernel
  obtain ⟨⟨root, cm⟩, decoded⟩ := Option.isSome_iff_exists.mp returns
  have ran : @threadAll CollateralManager Request Response (@serve .ascii)
      [.decode { regions := [{ records := [mcaRecord] }] }] mcaManager = some ([.tree root], cm) := by
    simp only [threadAll, serve, decoded, Option.map_some]
    rfl
  obtain ⟨ordered, keyed, registers⟩ := @session_json_registers .ascii _ _ _ _ _ root ran List.mem_cons_self
  exact ⟨_, cm, root, ran, List.mem_cons_self, ordered, keyed, registers mca_names⟩

end CollateralManager

end Crashlog
