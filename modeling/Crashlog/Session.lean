import Crashlog.Analysis
import Crashlog.CrashLog
import Crashlog.Decode
import Crashlog.Stateless

/-!
# Decoding with one collateral manager

One collateral manager serves all records of a Crash Log and all the files of
a session. Its cache is written by every lookup, so decoding threads it. No
lookup of the decoder names a security level, and the cache repeats what the
tree holds at the highest one: decoding is a function of the tree and of the
product information, and what was decoded before does not show.
-/

namespace Crashlog

open Bytes

/-! ## Decoding a Crash Log -/

namespace CrashLog

variable [UnicodeTables]

/-- The body of the inner loop of `decode`. -/
def mergeDecoded (root : Node) (record : Record) (cm : CollateralManager) : Option (Node × CollateralManager) := do
  let (decoded, cm) ← record.decode cm
  let root ← root.merge decoded
  some (root, cm)

def decode (crashlog : CrashLog) (cm : CollateralManager) : Option (Node × CollateralManager) :=
  crashlog.regions.foldlM (fun ran region =>
    region.records.foldlM (fun ran record => mergeDecoded ran.1 record ran.2) ran) (Node.newRoot, cm)

end CrashLog

/-! ## The application -/

namespace App

variable [UnicodeTables] [BinaryHeap]

/-- A file is given by what reading it returns. -/
def triageFile (input : Except String (List Byte)) (cm : CollateralManager) :
    Option (Except Error (List Tag) × CollateralManager) :=
  match input with
  | .error message => some (.error (.ioError message), cm)
  | .ok bytes =>
      match CrashLog.fromSlice bytes with
      | .error error => some (.error error, cm)
      | .ok crashlog => do
          let (nodes, cm) ← crashlog.decode cm
          some (.ok (Analyzer.analyze [nodes]), cm)

/-- The findings of each input file, or the error that is logged. -/
def triageFiles (inputs : List (Except String (List Byte))) (cm : CollateralManager) :
    Option (List (Except Error (List Tag)) × CollateralManager) :=
  threadAll triageFile inputs cm

end App

/-! ## A manager with an honest cache -/

namespace CollateralManager

/-- The manager before its first lookup. -/
def fresh (tree : CollateralTree) (targetInfo : UInt32 → Option TargetInfo) : CollateralManager where
  tree := tree
  items := fun _ => none
  targetInfo := targetInfo

@[simp] theorem fresh_target_info (tree : CollateralTree) (targetInfo : UInt32 → Option TargetInfo) :
    (fresh tree targetInfo).targetInfo = targetInfo := rfl

/-- The call leaves the security level to the manager. -/
def Call.Blind : Call → Prop
  | .pvss .. => False
  | .pvs .. | .header .. => True

/-- Both managers are for the same products, and the cache of the first one
repeats what the tree of the other one holds at the highest security level. -/
structure Serves (start cm : CollateralManager) : Prop where
  tree : cm.tree = start.tree
  targetInfo : cm.targetInfo = start.targetInfo
  cached : ∀ index item, cm.items index = some item → start.tree.highest index.pvss index.path = .ok item

theorem fresh_serves (tree : CollateralTree) (targetInfo : UInt32 → Option TargetInfo) :
    Serves (fresh tree targetInfo) (fresh tree targetInfo) where
  tree := rfl
  targetInfo := rfl
  cached _ _ stored := by cases stored

variable {start cm : CollateralManager} {call : Call}

theorem pvss_congr {header : Header} (same : cm.targetInfo = start.targetInfo) : header.pvss cm = header.pvss start := by
  simp only [Header.pvss, Header.product, Header.variant, same]

theorem lookup_of_congr (same : cm.targetInfo = start.targetInfo) (call : Call) :
    cm.lookupOf call = start.lookupOf call := by
  cases call with
  | pvss pvss path => rfl
  | pvs pvss path => rfl
  | header header path => rw [lookupOf, lookupOf, pvss_congr same]

/-- A call without a security level asks for the highest one. -/
theorem Call.Blind.meaning (blind : call.Blind) {lookup : Lookup} (asked : cm.lookupOf call = .ok lookup) :
    lookup.meaning = .highest := by
  cases call with
  | pvss pvss path => cases blind
  | pvs pvss path =>
      cases asked
      rfl
  | header header path =>
      change (header.pvss cm).map _ = _ at asked
      cases known : header.pvss cm with
      | error error =>
          rw [known] at asked
          cases asked
      | ok pvss =>
          rw [known] at asked
          cases asked
          rfl

namespace Serves

theorem answer_eq (serves : Serves start cm) (call : Call) : cm.answer call = start.answer call := by
  rw [answer, answer, lookup_of_congr serves.targetInfo, serves.tree]

/-- What the cache holds for such a call is the answer of the tree. -/
theorem holds (serves : Serves start cm) (blind : call.Blind) : cm.memo.Holds cm.items call := by
  intro index item keyed stored
  obtain ⟨lookup, asked, rfl⟩ := key_eq_some_iff.mp keyed
  refine answer_eq_ok_iff.mpr ⟨lookup, asked, ?_⟩
  rw [Lookup.answer, blind.meaning asked, serves.tree]
  exact serves.cached _ item stored

/-- The only entry that a call adds is its own answer. -/
theorem after_call (serves : Serves start cm) (blind : call.Blind) : Serves start (cm.call call).2 := by
  rw [call_eq_ask]
  refine ⟨serves.tree, serves.targetInfo, fun index item stored => ?_⟩
  rcases Memo.stored_after_ask stored with old | ⟨keyed, fetched⟩
  · exact serves.cached index item old
  · obtain ⟨lookup, asked, rfl⟩ := key_eq_some_iff.mp keyed
    obtain ⟨again, same, answered⟩ := answer_eq_ok_iff.mp fetched
    rw [asked] at same
    cases same
    rwa [Lookup.answer, blind.meaning asked, serves.tree] at answered

/-- The cache does not show in such a call. -/
theorem call_stateless (blind : call.Blind) :
    Stateless (Serves start) (fun cm => some (cm.call call)) (some (start.answer call)) where
  returned cm serves := by
    rw [Option.map_some, call_eq_ask, Memo.ask_eq_fetch_iff.mpr (serves.holds blind)]
    exact congrArg some (serves.answer_eq call)
  kept cm serves result after ran := by
    have same : (cm.call call).2 = after := congrArg Prod.snd (Option.some.inj ran)
    rw [← same]
    exact serves.after_call blind

end Serves

end CollateralManager

/-! ## Decoding straight from the tree

The same decoder, with the answers of the tree in place of those of the
manager. It reads the manager and does not change it. -/

namespace Record.Straight

open CollateralManager

variable [UnicodeTables] (start : CollateralManager) (record : Record)

/-- The first layout that the tree has for the record. -/
def layout (decodeDef : String) (paths : List ItemPath) : Option (List Byte) :=
  paths.findSome? fun path => (start.answer (.header record.header (path.push decodeDef))).toOption

/-- The tree of a layout. -/
def decodeLayout (offset : Nat) (layout : List Byte) : Option (Except Error Node) :=
  match record.decodeWithCsv layout offset with
  | none => none
  | some (.error error) => some (.error error)
  | some (.ok decoded) => (Node.newRoot.merge decoded).map .ok

def decodeWithPaths (decodeDef : String) (offset : Nat) (paths : List ItemPath) : Option (Except Error Node) :=
  match layout start record decodeDef paths with
  | none => some (.error (.missingDecodeDefinitions record.header.version))
  | some layout => decodeLayout record offset layout

def decodeWithDecodeDef (decodeDef : String) (offset : Nat) : Option (Except Error Node) :=
  match record.header.decodeDefinitionsPaths start with
  | .error error => some (.error error)
  | .ok paths => decodeWithPaths start record decodeDef offset paths

def mergeExtension (offset : Nat) (root : Node) : List String → Option Node
  | [] => some root
  | decodeDef :: rest => do
      match ← decodeWithDecodeDef start record decodeDef offset with
      | .error _ => mergeExtension offset root rest
      | .ok extension => root.merge extension

/-- The layouts of the extended part of the record, merged into the tree of its base. -/
def extend (root : Node) : Option Node :=
  match record.header.extendedRecordOffset with
  | some offset => mergeExtension start record offset root ["layout_sq.csv", "layout_module.csv"]
  | none => some root

def decodeSubsections (sect : Node) : List String → Option (Except Error Node)
  | [] => some (.error (.missingDecodeDefinitions record.header.version))
  | subsectionName :: rest => do
      match ← decodeWithDecodeDef start record ("layout_" ++ subsectionName ++ ".csv") 0 with
      | .error _ => decodeSubsections sect rest
      | .ok root =>
          let root ← extend start record root
          match root.get subsectionName with
          | none => decodeSubsections sect rest
          | some subsection =>
              (sect.createHierarchyFromIter (coreHierarchy subsection) fun ptr => ptr.merge root).map
                fun sect => .ok (Node.newRoot.add sect)

def decodeAsCoreRecord : Option (Except Error Node) :=
  match record.header.recordType with
  | .error error => some (.error error)
  | .ok recordType => decodeSubsections start record (Node.newRecord recordType) ["thread", "core"]

def decode : Option Node := do
  let decoded ← (if record.isCore then decodeAsCoreRecord start record
    else decodeWithDecodeDef start record "layout.csv" 0)
  let recordNode := match decoded with
    | .ok node => node
    | .error _ => record.decodeHeader
  putUnder (record.getRootPathUsingCm start) recordNode

end Record.Straight

namespace Record

open CollateralManager

variable [UnicodeTables] {start : CollateralManager} {record : Record} {decodeDef : String} {offset : Nat}

/-- A path of the loop: a lookup, then its layout or the rest of the paths. -/
theorem decode_with_paths_cons (cm : CollateralManager) (path : ItemPath) (rest : List ItemPath) :
    record.decodeWithPaths decodeDef offset cm (path :: rest) =
      (some (cm.call (.header record.header (path.push decodeDef)))).bind fun ran =>
        match ran.1 with
        | .error _ => record.decodeWithPaths decodeDef offset ran.2 rest
        | .ok layout => (Straight.decodeLayout record offset layout).map (·, ran.2) := by
  rw [Option.bind_some, CollateralManager.call, decodeWithPaths]
  cases cm.getItemWithHeader record.header (path.push decodeDef) with
  | mk answer next =>
      cases answer with
      | error error => rfl
      | ok layout =>
          simp only [Straight.decodeLayout]
          cases record.decodeWithCsv layout offset with
          | none => rfl
          | some decoded =>
              cases decoded with
              | error error => rfl
              | ok decoded => simp only [Option.map_map, Function.comp_def]

theorem straight_with_paths_cons (path : ItemPath) (rest : List ItemPath) :
    Straight.decodeWithPaths start record decodeDef offset (path :: rest) =
      (some (start.answer (.header record.header (path.push decodeDef)))).bind fun answer =>
        match answer with
        | .error _ => Straight.decodeWithPaths start record decodeDef offset rest
        | .ok layout => Straight.decodeLayout record offset layout := by
  rw [Option.bind_some, Straight.decodeWithPaths, Straight.layout, List.findSome?_cons]
  cases start.answer (.header record.header (path.push decodeDef)) with
  | error error => rfl
  | ok layout => rfl

theorem decode_with_paths_stateless (paths : List ItemPath) :
    Stateless (Serves start) (fun cm => record.decodeWithPaths decodeDef offset cm paths)
      (Straight.decodeWithPaths start record decodeDef offset paths) := by
  induction paths with
  | nil => exact .pure _
  | cons path rest ih =>
      simp only [decode_with_paths_cons, straight_with_paths_cons]
      have blind : (Call.header record.header (path.push decodeDef)).Blind := trivial
      refine (Serves.call_stateless blind).bind fun answer => ?_
      cases answer with
      | error error => exact ih
      | ok layout => exact .lift _

theorem decode_with_decode_def_stateless :
    Stateless (Serves start) (fun cm => record.decodeWithDecodeDef cm decodeDef offset)
      (Straight.decodeWithDecodeDef start record decodeDef offset) := by
  have paths : ∀ cm, Serves start cm →
      record.header.decodeDefinitionsPaths cm = record.header.decodeDefinitionsPaths start := by
    intro cm serves
    simp only [Header.decodeDefinitionsPaths, Header.die_congr serves.targetInfo]
  unfold Straight.decodeWithDecodeDef
  cases known : record.header.decodeDefinitionsPaths start with
  | error error =>
      refine (Stateless.pure (Except.error error)).congr fun cm serves => ?_
      rw [decodeWithDecodeDef, paths cm serves, known]
  | ok paths' =>
      refine (decode_with_paths_stateless paths').congr fun cm serves => ?_
      rw [decodeWithDecodeDef, paths cm serves, known]

theorem merge_extension_stateless (root : Node) (decodeDefs : List String) :
    Stateless (Serves start) (fun cm => record.mergeExtension offset root cm decodeDefs)
      (Straight.mergeExtension start record offset root decodeDefs) := by
  induction decodeDefs with
  | nil => exact .pure _
  | cons decodeDef rest ih =>
      have step : ∀ cm, record.mergeExtension offset root cm (decodeDef :: rest) =
          (record.decodeWithDecodeDef cm decodeDef offset).bind fun ran =>
            match ran.1 with
            | .error _ => record.mergeExtension offset root ran.2 rest
            | .ok extension => (root.merge extension).map (·, ran.2) := by
        intro cm
        rw [mergeExtension]
        cases record.decodeWithDecodeDef cm decodeDef offset with
        | none => rfl
        | some ran => cases ran with
          | mk decoded next => cases decoded <;> rfl
      simp only [step]
      refine decode_with_decode_def_stateless.bind fun decoded => ?_
      cases decoded with
      | error error => exact ih
      | ok extension => exact .lift _

/-- What `decodeSubsections` merges into the tree of the base. -/
def extend (record : Record) (root : Node) (cm : CollateralManager) : Option (Node × CollateralManager) :=
  match record.header.extendedRecordOffset with
  | some offset => record.mergeExtension offset root cm ["layout_sq.csv", "layout_module.csv"]
  | none => some (root, cm)

theorem extend_stateless (root : Node) :
    Stateless (Serves start) (record.extend root) (Straight.extend start record root) := by
  unfold extend Straight.extend
  cases record.header.extendedRecordOffset with
  | none => exact .pure root
  | some offset => exact merge_extension_stateless root _

/-- A name of the loop: the tree of its layout, extended and put into the section. -/
theorem decode_subsections_cons (cm : CollateralManager) (sect : Node) (subsectionName : String)
    (rest : List String) :
    record.decodeSubsections sect cm (subsectionName :: rest) =
      (record.decodeWithDecodeDef cm ("layout_" ++ subsectionName ++ ".csv") 0).bind fun ran =>
        match ran.1 with
        | .error _ => record.decodeSubsections sect ran.2 rest
        | .ok root => (record.extend root ran.2).bind fun ran =>
            match ran.1.get subsectionName with
            | none => record.decodeSubsections sect ran.2 rest
            | some subsection =>
                ((sect.createHierarchyFromIter (coreHierarchy subsection) fun ptr => ptr.merge ran.1).map
                  fun sect => Except.ok (Node.newRoot.add sect)).map (·, ran.2) := by
  rw [decodeSubsections]
  cases record.decodeWithDecodeDef cm ("layout_" ++ subsectionName ++ ".csv") 0 with
  | none => rfl
  | some ran =>
      obtain ⟨decoded, next⟩ := ran
      cases decoded with
      | error error => rfl
      | ok root =>
          simp only [Option.bind_some, extend, Option.map_map, Function.comp_def]
          cases record.header.extendedRecordOffset with
          | none => rfl
          | some offset =>
              dsimp only
              cases record.mergeExtension offset root next ["layout_sq.csv", "layout_module.csv"] <;> rfl

theorem decode_subsections_stateless (sect : Node) (names : List String) :
    Stateless (Serves start) (fun cm => record.decodeSubsections sect cm names)
      (Straight.decodeSubsections start record sect names) := by
  induction names with
  | nil => exact .pure _
  | cons subsectionName rest ih =>
      simp only [decode_subsections_cons]
      refine decode_with_decode_def_stateless.bind fun decoded => ?_
      cases decoded with
      | error error => exact ih
      | ok root =>
          refine (extend_stateless root).bind fun extended => ?_
          cases found : extended.get subsectionName with
          | none => simpa only [found] using ih
          | some subsection =>
              simp only [found]
              exact .lift _

theorem decode_as_core_record_stateless :
    Stateless (Serves start) (fun cm => record.decodeAsCoreRecord cm) (Straight.decodeAsCoreRecord start record) := by
  unfold decodeAsCoreRecord Straight.decodeAsCoreRecord
  cases record.header.recordType with
  | error error => exact .pure _
  | ok recordType => exact decode_subsections_stateless _ _

/-- Decoding a record computes what decoding straight from the tree computes. -/
theorem decode_stateless (record : Record) :
    Stateless (Serves start) record.decode (Straight.decode start record) := by
  have layouts : Stateless (Serves start)
      (fun cm => if record.isCore then record.decodeAsCoreRecord cm
        else record.decodeWithDecodeDef cm "layout.csv" 0)
      (if record.isCore then Straight.decodeAsCoreRecord start record
        else Straight.decodeWithDecodeDef start record "layout.csv" 0) := by
    split_ifs
    · exact decode_as_core_record_stateless
    · exact decode_with_decode_def_stateless
  refine layouts.bind fun decoded => ?_
  refine (Stateless.lift (putUnder (record.getRootPathUsingCm start) _)).congr fun cm serves => ?_
  dsimp only
  rw [get_root_path_using_cm_congr serves.targetInfo]
  cases putUnder (record.getRootPathUsingCm start) _ <;> rfl

end Record

/-! ## Sessions -/

namespace CrashLog

open CollateralManager

variable [UnicodeTables] {start : CollateralManager}

/-- The tree of a Crash Log, straight from the collateral tree. -/
def decodeStraight (start : CollateralManager) (crashlog : CrashLog) : Option Node :=
  crashlog.records.foldlM (fun root record => (Record.Straight.decode start record).bind root.merge) Node.newRoot

theorem merge_decoded_stateless (root : Node) (record : Record) :
    Stateless (Serves start) (mergeDecoded root record)
      ((Record.Straight.decode start record).bind root.merge) := by
  refine (Record.decode_stateless record).bind fun decoded => ?_
  refine (Stateless.lift (root.merge decoded)).congr fun cm _ => ?_
  cases merged : root.merge decoded <;> simp [merged]

theorem decode_stateless (crashlog : CrashLog) :
    Stateless (Serves start) crashlog.decode (crashlog.decodeStraight start) := by
  have loops : crashlog.decode = fun cm =>
      crashlog.records.foldlM (fun ran record => mergeDecoded ran.1 record ran.2) (Node.newRoot, cm) := by
    funext cm
    exact foldlM_regions (fun ran record => mergeDecoded ran.1 record ran.2) crashlog (Node.newRoot, cm)
  rw [loops]
  exact Stateless.fold (fun root record _ => merge_decoded_stateless root record) Node.newRoot

end CrashLog

/-- What a user of the library asks a collateral manager for, other than an
item of a given security level. -/
inductive Request where
  | decode (crashlog : CrashLog)
  | itemWithPvs (pvss : PVSS) (path : ItemPath)
  | itemWithHeader (header : Header) (path : ItemPath)

inductive Response where
  | tree (root : Node)
  | item (result : Except Error (List Byte))

namespace CollateralManager

variable [UnicodeTables]

def serve (request : Request) (cm : CollateralManager) : Option (Response × CollateralManager) :=
  match request with
  | .decode crashlog => (crashlog.decode cm).map fun (root, cm) => (.tree root, cm)
  | .itemWithPvs pvss path =>
      let (result, cm) := cm.getItemWithPvs pvss path
      some (.item result, cm)
  | .itemWithHeader header path =>
      let (result, cm) := cm.getItemWithHeader header path
      some (.item result, cm)

def serveStraight (start : CollateralManager) : Request → Option Response
  | .decode crashlog => (crashlog.decodeStraight start).map .tree
  | .itemWithPvs pvss path => some (.item (start.answer (.pvs pvss path)))
  | .itemWithHeader header path => some (.item (start.answer (.header header path)))

theorem serve_stateless {start : CollateralManager} (request : Request) :
    Stateless (Serves start) (serve request) (serveStraight start request) := by
  cases request with
  | decode crashlog => exact crashlog.decode_stateless.map Response.tree
  | itemWithPvs pvss path =>
      have blind : (Call.pvs pvss path).Blind := trivial
      exact (Serves.call_stateless blind).map Response.item
  | itemWithHeader header path =>
      have blind : (Call.header header path).Blind := trivial
      exact (Serves.call_stateless blind).map Response.item

/-- However a session goes on, every request is answered as if it were the first one. -/
theorem session_answers_alone (tree : CollateralTree) (targetInfo : UInt32 → Option TargetInfo)
    (requests : List Request) :
    (threadAll serve requests (fresh tree targetInfo)).map Prod.fst =
      requests.mapM fun request => (serve request (fresh tree targetInfo)).map Prod.fst :=
  Stateless.thread_all_alone serve_stateless requests (fresh_serves tree targetInfo) (fresh_serves tree targetInfo)

end CollateralManager

namespace App

open CollateralManager

variable [UnicodeTables] [BinaryHeap] {start : CollateralManager}

def triageStraight (start : CollateralManager) (input : Except String (List Byte)) :
    Option (Except Error (List Tag)) :=
  match input with
  | .error message => some (.error (.ioError message))
  | .ok bytes =>
      match CrashLog.fromSlice bytes with
      | .error error => some (.error error)
      | .ok crashlog => (crashlog.decodeStraight start).map fun nodes => .ok (Analyzer.analyze [nodes])

theorem triage_file_stateless (input : Except String (List Byte)) :
    Stateless (Serves start) (triageFile input) (triageStraight start input) := by
  cases input with
  | error message => exact .pure (Except.error (Error.ioError message))
  | ok bytes =>
      cases read : CrashLog.fromSlice bytes with
      | error error =>
          simp only [triageStraight, read]
          refine (Stateless.pure (Except.error error)).congr fun cm _ => ?_
          simp only [triageFile, read]
      | ok crashlog =>
          simp only [triageStraight, read]
          refine (crashlog.decode_stateless.map fun nodes => Except.ok (Analyzer.analyze [nodes])).congr fun cm _ => ?_
          simp only [triageFile, read, Option.map_eq_bind]
          rfl

/-- The findings in a file do not depend on the files that are triaged with it. -/
theorem triage_files_alone (tree : CollateralTree) (targetInfo : UInt32 → Option TargetInfo)
    (inputs : List (Except String (List Byte))) :
    (triageFiles inputs (fresh tree targetInfo)).map Prod.fst =
      inputs.mapM fun input => (triageFile input (fresh tree targetInfo)).map Prod.fst :=
  Stateless.thread_all_alone triage_file_stateless inputs (fresh_serves tree targetInfo) (fresh_serves tree targetInfo)

end App

end Crashlog
