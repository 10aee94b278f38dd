import Crashlog.CrashLog
import Crashlog.Graft

/-!
# Decoding headers into a tree

Without collateral every record is decoded into its header: a record node,
named by the record type, under the die that the header or the header of the
surrounding box names. The trees of all records are merged into one. `Decoded`
is the invariant of that merge over the records merged so far; it says where
every record is and that nothing else is there.
-/

namespace Crashlog

open Bytes

/-! ## Header nodes -/

section Conversions

variable [UnicodeTables]

def Node.fromRecordSize (size : RecordSize) : Node :=
  ((Node.newSection "record_size").add
    (.newField "record_size" size.recordSize.toUInt64)).add
    (.newField "extended_record_size" size.extendedRecordSize.toUInt64)

def Node.fromVersion (version : Version) : Node :=
  ((((Node.newField "version" version.asU32.toUInt64).add
    (.newField "revision" version.revision.toUInt64)).add
    (.newField "header_type" version.headerType.toUInt64)).add
    (.newField "product_id" version.productId.toUInt64)).add
    (.newField "record_type" version.recordType.toUInt64)

/-- The three fields that most header types have. -/
def Node.addCommonFields (node : Node) (timestamp : UInt64) (agentVersion reason : UInt32) : Node :=
  ((node.add (.newField "timestamp" timestamp)).add
    (.newField "agent_version" agentVersion.toUInt64)).add
    (.newField "reason" reason.toUInt64)

def Node.completionStatusSection (completionStatus : UInt32) (collectionComplete : Bool) : Node :=
  ((Node.newSection "completion_status").add
    (.newField "completion_status" completionStatus.toUInt64)).add
    (.newField "record_collection_completed" collectionComplete.toUInt64)

def Node.addHeaderType (node : Node) : HeaderType → Node
  | .type0 | .type1 => node
  | .type2 timestamp agentVersion reason => node.addCommonFields timestamp agentVersion reason
  | .type3 timestamp agentVersion reason completionStatus collectionComplete =>
      (node.addCommonFields timestamp agentVersion reason).add
        (.completionStatusSection completionStatus collectionComplete)
  | .type4 timestamp agentVersion reason whoami misc =>
      ((node.addCommonFields timestamp agentVersion reason).add
        (.newField "whoami" whoami.toUInt64)).add (.newField "misc" misc.toUInt64)
  | .type5 timestamp agentVersion reason completionStatus collectionComplete errorStatus =>
      ((node.addCommonFields timestamp agentVersion reason).add
        (.newField "error_status" errorStatus.toUInt64)).add
        (.completionStatusSection completionStatus collectionComplete)
  | .type6 timestamp agentVersion reason dieId socketId completionStatusSize completionStatus
      collectionComplete =>
      let dieSktInfo := ((((Node.newSection "die_skt_info").add
        (.newField "die_id" dieId.toUInt64)).add
        (.newField "socket_id" socketId.toUInt64)).add
        (.newField "completion_status_size" completionStatusSize.toUInt64)).add
        (.newField "record_collection_completed" collectionComplete.toUInt64)
      completionStatus.zipIdx.foldl
        (fun node (status, i) =>
          node.add (.newField ("completion_status" ++ toString i) status.toUInt64))
        ((node.addCommonFields timestamp agentVersion reason).add dieSktInfo)
  | .type0LegacyServer timestamp agentVersion reason dieId socketId completionStatus
      collectionComplete =>
      ((((node.addCommonFields timestamp agentVersion reason).add
        (.newField "die_id" dieId.toUInt64)).add
        (.newField "socket_id" socketId.toUInt64)).add
        (.newField "completion_status" completionStatus.toUInt64)).add
        (.newField "record_collection_completed" collectionComplete.toUInt64)

def Node.fromHeader (header : Header) : Node :=
  (((Node.newSection "hdr").add (.fromVersion header.version)).add
    (.fromRecordSize header.size)).addHeaderType header.headerType

end Conversions

/-! ## Decoding -/

namespace Header

def getRootPath (header : Header) : Option String :=
  match header.headerType with
  | .type6 _ _ _ dieId socketId .. | .type0LegacyServer _ _ _ dieId socketId .. =>
      some ("processors.cpu" ++ toString socketId.toNat ++ ".die" ++ toString dieId.toNat)
  | _ => none

end Header

namespace Record

def getRootPath (record : Record) : Option String :=
  match record.header.getRootPath with
  | some customRoot => some customRoot
  | none =>
      match record.context.parentHeader with
      | some parentHeader => parentHeader.getRootPath
      | none => none

variable [UnicodeTables]

def decodeHeader (record : Record) : Node :=
  let recordType := record.header.recordType.toOption.getD "record"
  Node.newRoot.add ((Node.newRecord recordType).add (.fromHeader record.header))

def decodeWithoutCm (record : Record) : Option Node :=
  match record.getRootPath with
  | some customRoot => Node.newRoot.createHierarchy customRoot fun ptr => ptr.merge record.decodeHeader
  | none => Node.newRoot.merge record.decodeHeader

end Record

namespace CrashLog

def records (crashlog : CrashLog) : List Record := (crashlog.regions.map Region.records).flatten

/-- Going over the regions and their records is going over all records. -/
theorem foldlM_regions {m : Type → Type} [Monad m] [LawfulMonad m] {σ : Type} (step : σ → Record → m σ)
    (crashlog : CrashLog) (state : σ) :
    crashlog.regions.foldlM (fun state region => region.records.foldlM step state) state =
      crashlog.records.foldlM step state := by
  have regions : ∀ (regions : List Region) (state : σ),
      regions.foldlM (fun state region => region.records.foldlM step state) state =
        (regions.map Region.records).flatten.foldlM step state := by
    intro regions
    induction regions with
    | nil => intro state; rfl
    | cons region rest ih =>
        intro state
        rw [List.foldlM_cons, List.map_cons, List.flatten_cons, List.foldlM_append]
        congr 1
        funext merged
        exact ih merged
  exact regions _ _

variable [UnicodeTables]

/-- The body of the inner loop of `decodeWithoutCm`. -/
def mergeRecord (root : Node) (record : Record) : Option Node := do
  let decoded ← record.decodeWithoutCm
  root.merge decoded

def decodeWithoutCm (crashlog : CrashLog) : Option Node :=
  crashlog.regions.foldlM (fun root region => region.records.foldlM mergeRecord root) Node.newRoot

end CrashLog

/-! ## The place of a record -/

namespace Header

/-- The path of the die, for a header that names one. -/
def diePath (header : Header) : Option (List String) :=
  match header.headerType with
  | .type6 _ _ _ dieId socketId .. | .type0LegacyServer _ _ _ dieId socketId .. =>
      some ["processors", "cpu" ++ toString socketId.toNat, "die" ++ toString dieId.toNat]
  | _ => none

theorem numbered_without_dot (name : String) (whole : '.' ∉ name.toList) (n : Nat) :
    '.' ∉ (name ++ toString n).toList := by
  rw [String.toList_append, List.mem_append]
  rintro (inName | inNumber)
  · exact whole inName
  · exact absurd (Text.nat_digits inNumber) (by decide)

/-- The segments of a location, whatever the die is called. -/
theorem split_location (socketId : Nat) (die : String) :
    Text.split '.' ("processors.cpu" ++ toString socketId ++ "." ++ die) =
      "processors" :: ("cpu" ++ toString socketId) :: Text.split '.' die := by
  have parts : "processors.cpu" ++ toString socketId ++ "." ++ die =
      "processors" ++ String.singleton '.' ++
        ("cpu" ++ toString socketId ++ String.singleton '.' ++ die) := by
    apply String.toList_injective
    simp only [String.toList_append, String.toList_singleton, List.append_assoc]
    rfl
  rw [parts, Text.split_append (by decide), Text.split_append (numbered_without_dot _ (by decide) _)]

/-- A numbered die is a die with that name. -/
theorem spell_number (socketId dieId : Nat) :
    "processors.cpu" ++ toString socketId ++ ".die" ++ toString dieId =
      "processors.cpu" ++ toString socketId ++ "." ++ ("die" ++ toString dieId) := by
  apply String.toList_injective
  simp [String.toList_append]

theorem split_root_path (socketId dieId : Nat) :
    Text.split '.' ("processors.cpu" ++ toString socketId ++ ".die" ++ toString dieId) =
      ["processors", "cpu" ++ toString socketId, "die" ++ toString dieId] := by
  rw [spell_number, split_location, Text.split_single (numbered_without_dot _ (by decide) _)]

theorem root_path_split (header : Header) :
    header.getRootPath.map (Text.split '.') = header.diePath := by
  unfold getRootPath diePath
  cases header.headerType <;> simp only [Option.map_none, Option.map_some, split_root_path]

end Header

namespace Record

/-- Where a record belongs: under its own die, else under that of its box, else
at the root. -/
def location (record : Record) : List String :=
  match record.header.diePath with
  | some path => path
  | none => (record.context.parentHeader.bind Header.diePath).getD []

theorem root_path_location (record : Record) :
    record.location = (record.getRootPath.map (Text.split '.')).getD [] := by
  unfold location getRootPath
  rw [← record.header.root_path_split]
  cases record.header.getRootPath with
  | some path => rfl
  | none =>
      cases record.context.parentHeader with
      | none => rfl
      | some parent => rw [Option.bind_some, ← parent.root_path_split]; rfl

theorem die_path_cases {header : Header} {path : List String} (found : header.diePath = some path) :
    ∃ socketId dieId : Nat, path = ["processors", "cpu" ++ toString socketId, "die" ++ toString dieId] := by
  unfold Header.diePath at found
  split at found
  · cases found
    exact ⟨_, _, rfl⟩
  · cases found
    exact ⟨_, _, rfl⟩
  · cases found

theorem location_cases (record : Record) :
    record.location = [] ∨ ∃ socketId dieId : Nat,
      record.location = ["processors", "cpu" ++ toString socketId, "die" ++ toString dieId] := by
  unfold location
  cases own : record.header.diePath with
  | some path => exact .inr (die_path_cases own)
  | none =>
      cases parent : record.context.parentHeader.bind Header.diePath with
      | none => exact .inl rfl
      | some path =>
          obtain ⟨header, _, found⟩ := Option.bind_eq_some_iff.mp parent
          exact .inr (die_path_cases found)

end Record

/-! ## Names -/

section Places

variable [UnicodeTables]

theorem lowercase_ascii (text : String) (ascii : Text.AllChars (fun c => c.toNat < 128) text) :
    UnicodeTables.toLowercase text = String.ofList (text.toList.map Char.toLower) :=
  UnicodeTables.to_lowercase_ascii text ascii

namespace Record

/-- The lower-case name of the record type. -/
def typeName (record : Record) : String :=
  UnicodeTables.toLowercase (record.header.recordType.toOption.getD "record")

omit [UnicodeTables] in
theorem record_type_cases (record : Record) :
    record.header.recordType.toOption.getD "record" ∈
      ["PMC", "PMC_FW_Trace", "Punit", "PCORE", "ECORE", "UNCORE", "PMC_TRACE", "TCSS", "PMC_RST",
        "PCODE", "CRASHLOG_AGENT", "BOX", "MCA", "record"] := by
  let Listed : Except Error String → Prop := fun recordType =>
    recordType.toOption.getD "record" ∈
      ["PMC", "PMC_FW_Trace", "Punit", "PCORE", "ECORE", "UNCORE", "PMC_TRACE", "TCSS", "PMC_RST",
        "PCODE", "CRASHLOG_AGENT", "BOX", "MCA", "record"]
  have named : ∀ name ∈ ["PMC", "PMC_FW_Trace", "Punit", "PCORE", "ECORE", "UNCORE", "PMC_TRACE",
      "TCSS", "PMC_RST", "PCODE", "CRASHLOG_AGENT", "BOX", "MCA"], Listed (.ok name) := by decide
  have unknown : Listed (.error (.invalidRecordType record.header.version.recordType)) := by
    change "record" ∈ _
    decide
  change Listed record.header.version.recordTypeAsStr
  unfold Version.recordTypeAsStr
  iterate 13
    refine iteInduction (motive := Listed) (fun _ => named _ (by decide)) fun _ => ?_
  exact unknown

theorem type_name_cases (record : Record) :
    record.typeName ∈
      ["pmc", "pmc_fw_trace", "punit", "pcore", "ecore", "uncore", "pmc_trace", "tcss", "pmc_rst",
        "pcode", "crashlog_agent", "box", "mca", "record"] := by
  have ascii : ∀ name ∈ ["PMC", "PMC_FW_Trace", "Punit", "PCORE", "ECORE", "UNCORE", "PMC_TRACE",
      "TCSS", "PMC_RST", "PCODE", "CRASHLOG_AGENT", "BOX", "MCA", "record"],
      Text.AllChars (fun c => c.toNat < 128) name ∧ String.ofList (name.toList.map Char.toLower) ∈
        ["pmc", "pmc_fw_trace", "punit", "pcore", "ecore", "uncore", "pmc_trace", "tcss", "pmc_rst",
          "pcode", "crashlog_agent", "box", "mca", "record"] := by decide
  obtain ⟨plain, lowered⟩ := ascii _ record.record_type_cases
  rw [typeName, lowercase_ascii _ plain]
  exact lowered

theorem type_name_unnumbered (record : Record) : Text.Unnumbered record.typeName := by
  have all : ∀ name ∈ ["pmc", "pmc_fw_trace", "punit", "pcore", "ecore", "uncore", "pmc_trace",
      "tcss", "pmc_rst", "pcode", "crashlog_agent", "box", "mca", "record"],
      Text.Unnumbered name := by decide
  exact all _ record.type_name_cases

/-- No instance of a record type is named like the section of the processors. -/
theorem instance_ne_processors (record : Record) (tries : Nat) (round : tries ≤ 2 ^ 32) :
    Text.instanceName record.typeName tries ≠ "processors" := by
  intro same
  have plain : Text.instanceName "processors" 0 = "processors" := rfl
  have names := (Text.instance_name_injective record.type_name_unnumbered
    (show Text.Unnumbered "processors" by decide) round (by omega) (same.trans plain.symm)).1
  have cases := record.type_name_cases
  rw [names] at cases
  revert cases
  decide

omit [UnicodeTables] in
theorem digit_plain {c : Char} (digit : c.isDigit) : c.toNat < 128 ∧ c.toLower = c := by
  simp only [Char.isDigit, Bool.and_eq_true, decide_eq_true_eq] at digit
  obtain ⟨_, above⟩ := digit
  have bound : c.val.toNat ≤ 57 := above
  refine ⟨show c.val.toNat < 128 by omega, ?_⟩
  unfold Char.toLower
  rw [dif_neg]
  rintro ⟨upper, _⟩
  have least : 65 ≤ c.val.toNat := upper
  omega

theorem lowercase_plain {name : String} (fixed : Text.AllChars (fun c => c.toNat < 128 ∧ c.toLower = c) name) :
    Node.Lowercase name := by
  have same : name.toList.map Char.toLower = name.toList := by
    conv_rhs => rw [← List.map_id name.toList]
    exact List.map_congr_left fun c member => (fixed c member).2
  rw [Node.Lowercase, lowercase_ascii name fun c member => (fixed c member).1, same, String.ofList_toList]

theorem lowercase_numbered {name : String} (fixed : Text.AllChars (fun c => c.toNat < 128 ∧ c.toLower = c) name)
    (n : Nat) : Node.Lowercase (name ++ toString n) := by
  apply lowercase_plain
  intro c member
  rw [String.toList_append, List.mem_append] at member
  rcases member with inName | inNumber
  · exact fixed c inName
  · exact digit_plain (Text.nat_digits inNumber)

theorem location_lowercase (record : Record) : ∀ name ∈ record.location, Node.Lowercase name := by
  rcases record.location_cases with root | ⟨socketId, dieId, die⟩
  · simp [root]
  · rw [die]
    intro name member
    simp only [List.mem_cons, List.not_mem_nil, or_false] at member
    rcases member with rfl | rfl | rfl
    · exact lowercase_plain (by decide)
    · exact lowercase_numbered (by decide) socketId
    · exact lowercase_numbered (by decide) dieId

end Record

/-! ## Header nodes hold no records -/

namespace Node

def Recordless (node : Node) : Prop :=
  ∀ path found, node.walk path = some found → found.kind ≠ .record

omit [UnicodeTables] in
theorem Recordless.add {self child : Node} (outer : self.Recordless) (inner : child.Recordless) :
    (self.add child).Recordless := by
  intro path found walked
  cases path with
  | nil =>
      cases walked
      exact outer [] self rfl
  | cons name rest =>
      rw [walk_cons, Node.add, get_set_child] at walked
      split_ifs at walked with here
      · exact inner rest found walked
      · exact outer (name :: rest) found walked

omit [UnicodeTables] in
theorem recordless_childless {node : Node} (childless : node.children = [])
    (kind : node.kind ≠ .record) : node.Recordless := by
  intro path found walked
  cases path with
  | nil =>
      cases walked
      exact kind
  | cons name rest =>
      rw [walk_cons, get_childless childless, Option.bind_none] at walked
      cases walked

theorem recordless_section (name : String) : (newSection name).Recordless :=
  recordless_childless rfl (by simp [newSection])

theorem recordless_field (name : String) (value : UInt64) : (newField name value).Recordless :=
  recordless_childless rfl (by simp [newField])

theorem recordless_common {node : Node} (outer : node.Recordless) (timestamp : UInt64)
    (agentVersion reason : UInt32) : (node.addCommonFields timestamp agentVersion reason).Recordless :=
  ((outer.add (recordless_field _ _)).add (recordless_field _ _)).add (recordless_field _ _)

theorem recordless_completion_status (completionStatus : UInt32) (collectionComplete : Bool) :
    (completionStatusSection completionStatus collectionComplete).Recordless :=
  ((recordless_section _).add (recordless_field _ _)).add (recordless_field _ _)

theorem recordless_header_type {node : Node} (outer : node.Recordless) (headerType : HeaderType) :
    (node.addHeaderType headerType).Recordless := by
  cases headerType with
  | type0 => exact outer
  | type1 => exact outer
  | type2 timestamp agentVersion reason => exact recordless_common outer _ _ _
  | type3 timestamp agentVersion reason completionStatus collectionComplete =>
      exact (recordless_common outer _ _ _).add (recordless_completion_status _ _)
  | type4 timestamp agentVersion reason whoami misc =>
      exact ((recordless_common outer _ _ _).add (recordless_field _ _)).add (recordless_field _ _)
  | type5 timestamp agentVersion reason completionStatus collectionComplete errorStatus =>
      exact ((recordless_common outer _ _ _).add (recordless_field _ _)).add
        (recordless_completion_status _ _)
  | type6 timestamp agentVersion reason dieId socketId completionStatusSize completionStatus
      collectionComplete =>
      have info := ((((recordless_section "die_skt_info").add
        (recordless_field "die_id" dieId.toUInt64)).add
        (recordless_field "socket_id" socketId.toUInt64)).add
        (recordless_field "completion_status_size" completionStatusSize.toUInt64)).add
        (recordless_field "record_collection_completed" collectionComplete.toUInt64)
      have start := (recordless_common outer timestamp agentVersion reason).add info
      simp only [addHeaderType]
      generalize completionStatus.zipIdx = statuses
      revert start
      generalize (node.addCommonFields timestamp agentVersion reason).add _ = filled
      intro start
      induction statuses generalizing filled with
      | nil => exact start
      | cons status rest ih => exact ih _ (start.add (recordless_field _ _))
  | type0LegacyServer timestamp agentVersion reason dieId socketId completionStatus
      collectionComplete =>
      exact ((((recordless_common outer _ _ _).add (recordless_field _ _)).add
        (recordless_field _ _)).add (recordless_field _ _)).add (recordless_field _ _)

theorem recordless_header (header : Header) : (fromHeader header).Recordless := by
  have version : (fromVersion header.version).Recordless :=
    ((((recordless_field _ _).add (recordless_field _ _)).add (recordless_field _ _)).add
      (recordless_field _ _)).add (recordless_field _ _)
  have size : (fromRecordSize header.size).Recordless :=
    ((recordless_section _).add (recordless_field _ _)).add (recordless_field _ _)
  exact recordless_header_type (((recordless_section _).add version).add size) _

theorem from_header_name (header : Header) : (fromHeader header).name = "hdr" := by
  have kept : ∀ (node : Node) (headerType : HeaderType),
      (node.addHeaderType headerType).name = node.name := by
    intro node headerType
    cases headerType with
    | type6 timestamp agentVersion reason dieId socketId completionStatusSize completionStatus
        collectionComplete =>
        simp only [addHeaderType]
        generalize completionStatus.zipIdx = statuses
        generalize same : (node.addCommonFields timestamp agentVersion reason).add _ = filled
        have start : filled.name = node.name := by
          subst same
          rfl
        clear same
        induction statuses generalizing filled with
        | nil => exact start
        | cons status rest ih => exact ih _ start
    | _ => rfl
  rw [fromHeader, kept]
  change UnicodeTables.toLowercase "hdr" = "hdr"
  rw [lowercase_ascii _ (by decide)]
  decide

end Node

/-! ## One record -/

namespace Record

/-- The decoded header of a record under a name. -/
def node (record : Record) (name : String) : Node where
  name := name
  kind := .record
  children := [("hdr", Node.fromHeader record.header)]

theorem decode_header_eq (record : Record) :
    record.decodeHeader = Node.newRoot.add (record.node record.typeName) := by
  have childless : ((Node.newRecord (record.header.recordType.toOption.getD "record")).add
      (.fromHeader record.header)) = record.node record.typeName := by
    rw [Node.add_to_childless rfl, Node.from_header_name]
    rfl
  rw [decodeHeader, childless]

theorem decode_without_cm_eq (record : Record) :
    record.decodeWithoutCm =
      some (Node.hang Node.newRoot (record.node record.typeName) record.location) := by
  have lowercase := record.location_lowercase
  rw [root_path_location] at lowercase ⊢
  unfold decodeWithoutCm
  rw [decode_header_eq]
  cases known : record.getRootPath with
  | some path =>
      rw [known] at lowercase
      exact Node.create_hierarchy_hang rfl lowercase
  | none =>
      have direct : Node.newRoot.createHierarchyFromIter [] (fun ptr =>
          ptr.merge (Node.newRoot.add (record.node record.typeName))) = some (Node.hang _ _ []) :=
        Node.create_hierarchy_hang rfl (by simp)
      rwa [Node.createHierarchyFromIter] at direct

/-- Nothing below a decoded header is a record. -/
theorem node_below (record : Record) (name : String) {path : List String} {found : Node}
    (walked : (record.node name).walk path = some found) (kind : found.kind = .record) : path = [] := by
  cases path with
  | nil => rfl
  | cons first rest =>
      rw [Node.walk_cons] at walked
      have child : ∀ node, (record.node name).get first = some node → node = .fromHeader record.header := by
        intro node stored
        have entry := OrderedMap.mem_of_lookup stored
        simp only [Record.node, List.mem_singleton, Prod.mk.injEq] at entry
        exact entry.2
      obtain ⟨node, stored, below⟩ := Option.bind_eq_some_iff.mp walked
      rw [child node stored] at below
      exact absurd kind (Node.recordless_header record.header rest found below)

end Record

end Places

end Crashlog
