import Crashlog.Collateral
import Crashlog.HeaderTree
import Crashlog.Layout

/-!
# Decoding with collateral

A record is decoded with the layouts of its product, or into its header where
there are none, and put under a die whose name may come from the collateral.
Core records are laid out in several files and go under their module, core and
thread. The product information is the same before and after.
-/

namespace Crashlog

open Bytes

namespace ItemPath

def push (path : ItemPath) (element : String) : ItemPath := { elements := path.elements ++ [element] }

end ItemPath

namespace Header

def revision (header : Header) : UInt32 := header.version.revision

def socketId (header : Header) : UInt8 :=
  match header.headerType with
  | .type6 _ _ _ _ socketId .. | .type0LegacyServer _ _ _ _ socketId .. => socketId
  | _ => 0

def dieId (header : Header) : Option UInt8 :=
  match header.headerType with
  | .type6 _ _ _ dieId _ .. | .type0LegacyServer _ _ _ dieId _ .. => some dieId
  | _ => none

def die (header : Header) (cm : CollateralManager) : Option String := do
  let dieId ← header.dieId
  header.getDieName dieId cm

def extendedRecordOffset (header : Header) : Option Nat :=
  if header.size.extendedRecordSize > 0 then
    some (header.size.recordSize.toNat * header.recordSizeGranularity)
  else none

def getRootPathUsingCm (header : Header) (cm : CollateralManager) : Option String :=
  match header.headerType with
  | .type6 _ _ _ _ socketId .. | .type0LegacyServer _ _ _ _ socketId .. =>
      (header.die cm).map fun die => "processors.cpu" ++ toString socketId.toNat ++ "." ++ die
  | _ => none

/-- The directories of the decode definitions. -/
def decodeDefinitionsPaths [UnicodeTables] (header : Header) (cm : CollateralManager) :
    Except Error (List ItemPath) := do
  let recordType ← header.recordType
  let revision := toString header.revision.toNat
  .ok (match header.die cm with
    | some die => [{ elements := ["decode-defs", recordType, Text.trimEndNumeric die, revision] }]
    | none => [
        { elements := ["decode-defs", recordType, revision] },
        { elements := ["decode-defs", recordType, "all"] }])

end Header

namespace Record

def getRootPathUsingCm (record : Record) (cm : CollateralManager) : Option String :=
  match record.header.getRootPathUsingCm cm with
  | some customRoot => some customRoot
  | none =>
      match record.context.parentHeader.bind fun parentHeader => parentHeader.getRootPathUsingCm cm with
      | some parentCustomRoot => some parentCustomRoot
      | none => record.getRootPath

variable [UnicodeTables]

/-- The node of a record under its location, or at the top without one. -/
def putUnder (customRoot : Option String) (recordNode : Node) : Option Node :=
  match customRoot with
  | some customRoot => Node.newRoot.createHierarchy customRoot fun ptr => ptr.merge recordNode
  | none => Node.newRoot.merge recordNode

/-- The loop of `decodeWithDecodeDef`: the first layout that is found is used.
The outer `none` is a panic or an endless merge. -/
def decodeWithPaths (record : Record) (decodeDef : String) (offset : Nat) (cm : CollateralManager) :
    List ItemPath → Option (Except Error Node × CollateralManager)
  | [] => some (.error (.missingDecodeDefinitions record.header.version), cm)
  | path :: rest =>
      match cm.getItemWithHeader record.header (path.push decodeDef) with
      | (.error _, cm) => record.decodeWithPaths decodeDef offset cm rest
      | (.ok layout, cm) =>
          match record.decodeWithCsv layout offset with
          | none => none
          | some (.error error) => some (.error error, cm)
          | some (.ok decoded) => (Node.newRoot.merge decoded).map fun root => (.ok root, cm)

def decodeWithDecodeDef (record : Record) (cm : CollateralManager) (decodeDef : String) (offset : Nat) :
    Option (Except Error Node × CollateralManager) :=
  match record.header.decodeDefinitionsPaths cm with
  | .error error => some (.error error, cm)
  | .ok paths => record.decodeWithPaths decodeDef offset cm paths

/-- The inner loop of `decodeAsCoreRecord`: the first extension that is found is merged. -/
def mergeExtension (record : Record) (offset : Nat) (root : Node) (cm : CollateralManager) :
    List String → Option (Node × CollateralManager)
  | [] => some (root, cm)
  | decodeDef :: rest =>
      match record.decodeWithDecodeDef cm decodeDef offset with
      | none => none
      | some (.error _, cm) => record.mergeExtension offset root cm rest
      | some (.ok extension, cm) => (root.merge extension).map (·, cm)

/-- The place of a core record among the modules, cores and threads. -/
def coreHierarchy (subsection : Node) : List String :=
  ["module", "core", "thread"].filterMap fun level =>
    (subsection.getValueByPath ("hdr.whoami." ++ level ++ "_id")).map fun id => level ++ toString id.toNat

/-- The outer loop of `decodeAsCoreRecord`. -/
def decodeSubsections (record : Record) (sect : Node) (cm : CollateralManager) :
    List String → Option (Except Error Node × CollateralManager)
  | [] => some (.error (.missingDecodeDefinitions record.header.version), cm)
  | subsectionName :: rest =>
      match record.decodeWithDecodeDef cm ("layout_" ++ subsectionName ++ ".csv") 0 with
      | none => none
      | some (.error _, cm) => record.decodeSubsections sect cm rest
      | some (.ok root, cm) =>
          let extended := match record.header.extendedRecordOffset with
            | some offset => record.mergeExtension offset root cm ["layout_sq.csv", "layout_module.csv"]
            | none => some (root, cm)
          match extended with
          | none => none
          | some (root, cm) =>
              match root.get subsectionName with
              | none => record.decodeSubsections sect cm rest
              | some subsection =>
                  (sect.createHierarchyFromIter (coreHierarchy subsection) fun ptr => ptr.merge root).map
                    fun sect => (.ok (Node.newRoot.add sect), cm)

def decodeAsCoreRecord (record : Record) (cm : CollateralManager) :
    Option (Except Error Node × CollateralManager) :=
  match record.header.recordType with
  | .error error => some (.error error, cm)
  | .ok recordType => record.decodeSubsections (Node.newRecord recordType) cm ["thread", "core"]

def isCore (record : Record) : Bool :=
  (record.header.version.recordType = RecordTypes.PCORE ||
    record.header.version.recordType = RecordTypes.ECORE) &&
    !record.header.version.errata.type0LegacyServerBox

/-- Only the header is decoded where the layout is missing or malformed. -/
def decode (record : Record) (cm : CollateralManager) : Option (Node × CollateralManager) := do
  let (decoded, cm) ← (if record.isCore then record.decodeAsCoreRecord cm
    else record.decodeWithDecodeDef cm "layout.csv" 0)
  let recordNode := match decoded with
    | .ok node => node
    | .error _ => record.decodeHeader
  let root ← putUnder (record.getRootPathUsingCm cm) recordNode
  some (root, cm)

end Record

/-! ## Decoding leaves the product information alone -/

namespace CollateralManager

variable {cm other : CollateralManager}

theorem get_item_with_header_target_info (header : Header) (path : ItemPath) :
    (cm.getItemWithHeader header path).2.targetInfo = cm.targetInfo := by
  change (cm.call (.header header path)).2.targetInfo = cm.targetInfo
  rw [call_eq_ask]

end CollateralManager

theorem Header.die_congr {header : Header} {cm other : CollateralManager}
    (same : cm.targetInfo = other.targetInfo) : header.die cm = header.die other := by
  simp only [die, getDieName, same]

namespace Record

variable {record : Record} {cm other after : CollateralManager}

theorem get_root_path_using_cm_congr (same : cm.targetInfo = other.targetInfo) :
    record.getRootPathUsingCm cm = record.getRootPathUsingCm other := by
  simp only [getRootPathUsingCm, Header.getRootPathUsingCm, Header.die_congr same]

variable [UnicodeTables] {decodeDef : String} {offset : Nat} {result : Except Error Node}

theorem decode_with_paths_target_info {paths : List ItemPath}
    (decoded : record.decodeWithPaths decodeDef offset cm paths = some (result, after)) :
    after.targetInfo = cm.targetInfo := by
  induction paths generalizing cm with
  | nil =>
      cases decoded
      rfl
  | cons path rest ih =>
      have kept := cm.get_item_with_header_target_info record.header (path.push decodeDef)
      unfold decodeWithPaths at decoded
      split at decoded
      · rename_i error next found
        rw [found] at kept
        exact (ih decoded).trans kept
      · rename_i layout next found
        rw [found] at kept
        split at decoded
        · cases decoded
        · cases decoded
          exact kept
        · obtain ⟨root, _, same⟩ := Option.map_eq_some_iff.mp decoded
          cases same
          exact kept

theorem decode_with_decode_def_target_info
    (decoded : record.decodeWithDecodeDef cm decodeDef offset = some (result, after)) :
    after.targetInfo = cm.targetInfo := by
  unfold decodeWithDecodeDef at decoded
  split at decoded
  · cases decoded
    rfl
  · exact decode_with_paths_target_info decoded

theorem merge_extension_target_info {root extended : Node} {decodeDefs : List String}
    (merged : record.mergeExtension offset root cm decodeDefs = some (extended, after)) :
    after.targetInfo = cm.targetInfo := by
  induction decodeDefs generalizing cm with
  | nil =>
      cases merged
      rfl
  | cons decodeDef rest ih =>
      unfold mergeExtension at merged
      split at merged
      · cases merged
      · rename_i error next decoded
        exact (ih merged).trans (decode_with_decode_def_target_info decoded)
      · rename_i extension next decoded
        obtain ⟨_, _, same⟩ := Option.map_eq_some_iff.mp merged
        cases same
        exact decode_with_decode_def_target_info decoded

theorem decode_subsections_target_info {sect : Node} {names : List String}
    (decoded : record.decodeSubsections sect cm names = some (result, after)) :
    after.targetInfo = cm.targetInfo := by
  induction names generalizing cm with
  | nil =>
      cases decoded
      rfl
  | cons subsectionName rest ih =>
      unfold decodeSubsections at decoded
      split at decoded
      · cases decoded
      · rename_i error next found
        exact (ih decoded).trans (decode_with_decode_def_target_info found)
      · rename_i root next found
        have first := decode_with_decode_def_target_info found
        simp only at decoded
        split at decoded
        · cases decoded
        · rename_i extendedRoot last extended
          have second : last.targetInfo = next.targetInfo := by
            split at extended
            · exact merge_extension_target_info extended
            · cases extended
              rfl
          split at decoded
          · exact ((ih decoded).trans second).trans first
          · obtain ⟨_, _, same⟩ := Option.map_eq_some_iff.mp decoded
            cases same
            exact second.trans first

theorem decode_as_core_record_target_info
    (decoded : record.decodeAsCoreRecord cm = some (result, after)) : after.targetInfo = cm.targetInfo := by
  unfold decodeAsCoreRecord at decoded
  split at decoded
  · cases decoded
    rfl
  · exact decode_subsections_target_info decoded

theorem decode_without_cm_put (record : Record) :
    record.decodeWithoutCm = putUnder record.getRootPath record.decodeHeader := by
  unfold decodeWithoutCm putUnder
  cases record.getRootPath <;> rfl

end Record

namespace Header

theorem root_path_eq (header : Header) :
    header.getRootPath = header.dieId.map fun dieId =>
      "processors.cpu" ++ toString header.socketId.toNat ++ ".die" ++ toString dieId.toNat := by
  unfold getRootPath dieId socketId
  cases header.headerType <;> rfl

theorem root_path_using_cm_eq (header : Header) (cm : CollateralManager) :
    header.getRootPathUsingCm cm = (header.die cm).map fun die =>
      "processors.cpu" ++ toString header.socketId.toNat ++ "." ++ die := by
  unfold getRootPathUsingCm die dieId socketId
  cases header.headerType <;> rfl

end Header

end Crashlog
