import Crashlog.Attribution
import Crashlog.DecodeHeaders
import Crashlog.DocumentOrder
import Crashlog.Info
import Crashlog.InstanceOrder
import Crashlog.Session

/-!
# Numbers of regions and records

Whatever numbers the regions of a Crash Log numbers them as they are listed:
the tables of records, the names of unpacked files, the instance names of
decoded records. So all of them follow the document order exactly when the
list does.
-/

namespace Crashlog

open Bytes

/-! ## What follows an order of the regions -/

/-- The file is a Crash Log, and its container stores the regions. -/
def Files.Stored {State : Type} (files : Files State) (state : State) (inputFile : PathBuf)
    (regions : List Region) : Prop :=
  ∃ bytes crashlog, files.read state inputFile = .ok bytes ∧ CrashLog.fromSlice bytes = .ok crashlog ∧
    storedRegions bytes = regions

namespace CrashLog

/-- Built from the regions, whatever else is known about it. -/
def BuiltFrom (crashlog : CrashLog) (regions : List Region) : Prop :=
  ∃ built, fromRegions regions = .ok built ∧ crashlog.regions = built.regions

/-- Among the files that are shown, each has a table with the records of its
regions in order, each record behind the number of its region and its own
number, and is read back so. -/
def ShownInOrder (order regions : List Region) : Prop :=
  ∀ (State : Type) (files : Files State) (state : State) (cm : CollateralManager) (display : Error → String)
    (format : InfoFormat) (before after : List PathBuf) (inputFile : PathBuf), files.Stored state inputFile regions →
    let several := decide ((before ++ inputFile :: after).length > 1)
    ∃ back, Info.info files state cm display (before ++ inputFile :: after) format =
        (before.flatMap fun other => Info.infoFile files state cm display several other format) ++
          (Info.heading several inputFile format ++ (format.page.records cm order ++ back)) ∧
      ((∀ productId info, cm.targetInfo productId = some info → Info.OneLined info) →
        Info.readRecords format (format.page.records cm order ++ back) =
          some ((Info.numbered order).map fun item =>
            some (item.1, item.2.1, (Info.fields cm item.2.2).map Table.trimmed)))

/-- The files that are written for a file are those of the regions, each under
its number. -/
def UnpackedInOrder (order regions : List Region) : Prop :=
  ∀ (State Place : Type) (files : Files State) (place : PathBuf → Place), files.Lawful place →
    ∀ (state : State) (inputFile : PathBuf), files.Stored state inputFile regions →
      (Unpack.unpackCrashlog files inputFile state).1 = .ok () →
      (∀ i region, order[i]? = some region →
        files.read (Unpack.unpackCrashlog files inputFile state).2 (Unpack.regionPath inputFile i) =
          .ok region.toBytes) ∧
      ∀ path, (∀ i < order.length, place path ≠ place (Unpack.regionPath inputFile i)) →
        files.read (Unpack.unpackCrashlog files inputFile state).2 path = files.read state path

section Decoding

variable [UnicodeTables]

/-- The tree of a record whose content is a single node. -/
def SingleNode (location : Option String) (leaf tree : Node) : Prop :=
  ∃ recordNode : Node, recordNode.children = [(leaf.name, leaf)] ∧ Record.putUnder location recordNode = some tree

/-- Of two records with nodes of one name under one location, the one that
comes first has the smaller number. -/
def NumberedInTurn (trees : List Node) (root : Node) : Prop :=
  ∀ before tree between otherTree after location leaf other,
    trees = before ++ tree :: (between ++ otherTree :: after) →
    SingleNode location leaf tree → SingleNode location other otherTree → leaf.name = other.name →
    root.Open (Record.segments location) → root.PlainRecord (Record.segments location) leaf.name →
    ∃ i j, i < j ∧ root.HoldsAt (Record.segments location ++ [Text.instanceName leaf.name i]) leaf ∧
      root.HoldsAt (Record.segments location ++ [Text.instanceName leaf.name j]) other

/-- Without collateral a record has the number of those before it that share
its location and its name. With collateral the trees of the records are merged
in turn, and numbered as they come. -/
structure DecodedInOrder (order regions : List Region) : Prop where
  headers : ∀ crashlog root, BuiltFrom crashlog regions → crashlog.decodeWithoutCm = some root →
    ∀ before record after, order.flatMap Region.records = before ++ record :: after →
      root.walk (record.location ++ [Text.instanceName record.typeName (record.earlier before)]) =
        some (record.node (Text.instanceName record.typeName (record.earlier before)))
  layouts : ∀ crashlog cm root last, BuiltFrom crashlog regions → crashlog.decode cm = some (root, last) →
    ∃ trees, threadAll Record.decode (order.flatMap Region.records) cm = some (trees, last) ∧
      Node.mergeInTurn Node.newRoot trees = some root ∧ NumberedInTurn trees root

/-- The regions are listed, shown, unpacked and decoded in one order. -/
structure InOrder (order regions : List Region) : Prop where
  listed : ∀ crashlog, fromRegions regions = .ok crashlog → crashlog.regions = order
  shown : ShownInOrder order regions
  unpacked : UnpackedInOrder order regions
  decoded : DecodedInOrder order regions

end Decoding

/-! ## Everything follows the list -/

variable {regions : List Region}

theorem stored_listed {State : Type} {files : Files State} {state : State} {inputFile : PathBuf}
    (stored : files.Stored state inputFile regions) :
    ∃ bytes crashlog, files.read state inputFile = .ok bytes ∧ fromSlice bytes = .ok crashlog ∧
      crashlog.regions = boxExpansion.run regions := by
  obtain ⟨bytes, crashlog, read, parsed, rfl⟩ := stored
  exact ⟨bytes, crashlog, read, parsed, (from_slice_regions_iff.mp ⟨crashlog, parsed, rfl⟩).2.symm⟩

theorem built_listed {crashlog : CrashLog} (built : BuiltFrom crashlog regions) :
    crashlog.regions = boxExpansion.run regions := by
  obtain ⟨other, expanded, same⟩ := built
  rw [from_regions_eq] at expanded
  split_ifs at expanded
  cases expanded
  exact same

theorem built_records {crashlog : CrashLog} (built : BuiltFrom crashlog regions) :
    crashlog.records = (boxExpansion.run regions).flatMap Region.records := by
  rw [records, built_listed built, List.flatMap_def]

theorem shown_as_listed (regions : List Region) : ShownInOrder (boxExpansion.run regions) regions := by
  intro State files state cm display format before after inputFile stored several
  obtain ⟨bytes, crashlog, read, parsed, listed⟩ := stored_listed stored
  let part (other : PathBuf) := Info.infoFile files state cm display several other format
  let extra := format.page.extraSections crashlog.metadata.extraCperSections
  have printed : part inputFile = Info.heading several inputFile format ++
      (format.page.records cm (boxExpansion.run regions) ++ extra) := by
    have tables (page : Info.Page) : Info.tables files state cm page inputFile =
        .ok (page.records cm (boxExpansion.run regions) ++
          page.extraSections crashlog.metadata.extraCperSections) := by
      simp only [Info.tables, read, parsed, Except.map, listed]
    cases format with
    | compact =>
        simp only [part, Info.infoFile, Info.compact, tables]
        rfl
    | markdown =>
        simp only [part, Info.infoFile, Info.markdown, tables]
        rfl
  have apart : ∀ c ∈ (extra ++ after.flatMap part).head?, c = '\n' := by
    refine Info.head_append (Info.head_extra_sections format _) ?_
    cases after with
    | nil =>
        intro c first
        cases first
    | cons other rest =>
        have more : several = true := by
          rw [decide_eq_true_iff, List.length_append, List.length_cons, List.length_cons]
          omega
        have parts : part = fun other => Info.infoFile files state cm display true other format := by
          simp only [part, more]
        rw [parts]
        exact Info.head_info_files (other :: rest) format
  refine ⟨extra ++ after.flatMap part, ?_, fun lined => Info.read_records lined format _ apart⟩
  have split : Info.info files state cm display (before ++ inputFile :: after) format =
      (before ++ inputFile :: after).flatMap part := rfl
  rw [split, List.flatMap_append, List.flatMap_cons, printed]
  simp only [List.append_assoc]
  rfl

theorem unpacked_as_listed (regions : List Region) : UnpackedInOrder (boxExpansion.run regions) regions := by
  intro State Place files place lawful state inputFile stored returned
  obtain ⟨bytes, crashlog, read, parsed, listed⟩ := stored_listed stored
  rw [← listed]
  refine ⟨fun i region found => Unpack.unpack_writes lawful read parsed returned found, fun path apart => ?_⟩
  rw [Unpack.unpack_eq read parsed]
  refine Attempt.Keeps.for_each (P := fun next => files.read next path = files.read state path) ?_ state rfl
  rintro ⟨region, i⟩ member next kept
  obtain ⟨inside, _⟩ := List.getElem?_eq_some_iff.mp (List.mk_mem_zipIdx_iff_getElem?.mp member)
  rw [Unpack.write_file_after, lawful.others _ _ _ _ (apart i inside), kept]

section Decoding

variable [UnicodeTables]

theorem single_node_hang {location : Option String} {leaf tree : Node} (single : SingleNode location leaf tree) :
    tree = Node.newRoot.hang leaf (Record.segments location) ∧
      ∀ segment ∈ Record.segments location, Node.Lowercase segment := by
  obtain ⟨recordNode, children, put⟩ := single
  have same : (fun ptr : Node => ptr.merge recordNode) = fun ptr => ptr.merge (Node.newRoot.add leaf) := by
    funext ptr
    rw [Node.merge_eq, Node.merge_eq, children]
    rfl
  have hung {path : List String} (lowercase : ∀ segment ∈ path, Node.Lowercase segment)
      (built : Node.newRoot.createHierarchyFromIter path (fun ptr => ptr.merge recordNode) = some tree) :
      tree = Node.newRoot.hang leaf path := by
    rw [same, Node.create_hierarchy_hang rfl lowercase, Option.some_inj] at built
    exact built.symm
  cases location with
  | none => exact ⟨hung (List.forall_mem_nil _) put, List.forall_mem_nil _⟩
  | some location =>
      have lowercase : ∀ segment ∈ Record.segments (some location), Node.Lowercase segment := by
        intro segment member
        obtain ⟨front, back, split⟩ := List.append_of_mem member
        exact Node.lowercase_of_created put front segment back split (Node.walk_childless rfl (by simp))
      exact ⟨hung lowercase put, lowercase⟩

theorem numbered_in_turn {trees : List Node} {root : Node}
    (merged : Node.mergeInTurn Node.newRoot trees = some root) : NumberedInTurn trees root := by
  intro before tree between otherTree after location leaf other split single otherSingle named sections plain
  obtain ⟨rfl, lowercase⟩ := single_node_hang single
  obtain ⟨rfl, _⟩ := single_node_hang otherSingle
  rw [split] at merged
  exact Node.branches_numbered merged named lowercase sections plain

/-- The trees of the records, in turn. -/
theorem decode_in_turn {records : List Record} {start root : Node} {cm last : CollateralManager}
    (ran : records.foldlM (fun ran record => mergeDecoded ran.1 record ran.2) (start, cm) = some (root, last)) :
    ∃ trees, threadAll Record.decode records cm = some (trees, last) ∧
      Node.mergeInTurn start trees = some root := by
  induction records generalizing start cm with
  | nil =>
      cases ran
      exact ⟨[], rfl, rfl⟩
  | cons record rest ih =>
      rw [List.foldlM_cons] at ran
      obtain ⟨⟨next, after⟩, step, others⟩ := Option.bind_eq_some_iff.mp ran
      obtain ⟨⟨tree, _⟩, decoded, put⟩ := Option.bind_eq_some_iff.mp step
      obtain ⟨_, joined, same⟩ := Option.bind_eq_some_iff.mp put
      cases same
      obtain ⟨trees, threaded, whole⟩ := ih others
      refine ⟨tree :: trees, ?_, Node.merge_in_turn_cons.mpr ⟨next, joined, whole⟩⟩
      rw [threadAll, decoded]
      change (threadAll Record.decode rest after).bind _ = _
      rw [threaded]
      rfl

theorem decoded_as_listed (regions : List Region) : DecodedInOrder (boxExpansion.run regions) regions where
  headers crashlog root built decoded before record after split := by
    rw [decode_without_cm_eq, built_records built] at decoded
    obtain ⟨whole, endless⟩ := merge_records ((boxExpansion.run regions).flatMap Region.records)
    by_cases countable : Countable ((boxExpansion.run regions).flatMap Region.records)
    · obtain ⟨merged, same, invariant⟩ := whole countable
      rw [same, Option.some_inj] at decoded
      rw [← decoded]
      exact invariant.present before record after split
    · rw [endless countable] at decoded
      cases decoded
  layouts crashlog cm root last built decoded := by
    have folded := foldlM_regions (fun ran record => mergeDecoded ran.1 record ran.2) crashlog (Node.newRoot, cm)
    rw [built_records built] at folded
    obtain ⟨trees, threaded, merged⟩ := decode_in_turn (folded.symm.trans decoded)
    exact ⟨trees, threaded, merged, numbered_in_turn merged⟩

theorem in_order_as_listed (regions : List Region) : InOrder (boxExpansion.run regions) regions where
  listed crashlog built := built_listed ⟨crashlog, built, rfl⟩
  shown := shown_as_listed regions
  unpacked := unpacked_as_listed regions
  decoded := decoded_as_listed regions

/-- The regions are listed, shown, unpacked and decoded in document order
exactly when the boxes of every region read the same backwards, as a single
box does. -/
theorem in_document_order_iff (regions : List Region) :
    InOrder (documentOrder regions) regions ↔
      ∀ region ∈ documentOrder regions, boxedRegions region = (boxedRegions region).reverse := by
  constructor
  · intro ordered
    exact (listed_in_document_order_iff regions).mp ordered.listed
  · intro palindromes
    rw [(document_order_eq_iff regions).mpr palindromes]
    exact in_order_as_listed regions

end Decoding

/-! ## Two boxes -/

/-- A box of eight bytes around a machine check record of a revision. -/
def boxRecord (revision : Byte) : Record where
  header := {
    version := { revision := 8, headerType := 1, productId := 0x7a, recordType := RecordTypes.BOX }
    size := { recordSize := 4 }
    headerType := .type1 }
  data := [0x08, 0xa1, 0x07, 0x3d, 4, 0, 0, 0, revision, 0xa1, 0x07, 0x3e, 2, 0, 0, 0]

/-- The record in such a box. -/
def checkRecord (revision : Byte) : Record where
  header := {
    version := { revision := revision.toUInt32, headerType := 1, productId := 0x7a, recordType := RecordTypes.MCA }
    size := { recordSize := 2 }
    headerType := .type1 }
  data := [revision, 0xa1, 0x07, 0x3e, 2, 0, 0, 0]
  context := { parentHeader := some (boxRecord revision).header }

def twoBoxes : Region := { records := [boxRecord 8, boxRecord 9] }

def twoBoxesFile (place : List String) : Option (List Byte) :=
  if place = ["dump.bin"] then some twoBoxes.toBytes else none

theorem two_boxes_listed :
    boxExpansion.run [twoBoxes] = [twoBoxes, { records := [checkRecord 9] }, { records := [checkRecord 8] }] := by
  decide +kernel

theorem two_boxes_in_order :
    documentOrder [twoBoxes] = [twoBoxes, { records := [checkRecord 8] }, { records := [checkRecord 9] }] := by
  decide +kernel

theorem two_boxes_stored : plainFiles.Stored twoBoxesFile "dump.bin" [twoBoxes] := by
  have parsed : (fromSlice twoBoxes.toBytes).toOption.isSome := by decide +kernel
  obtain ⟨crashlog, found⟩ := Option.isSome_iff_exists.mp parsed
  exact ⟨twoBoxes.toBytes, crashlog, plain_read_file (by decide) (by decide), except_to_option_eq_some.mp found,
    by decide +kernel⟩

theorem two_boxes_built :
    fromRegions [twoBoxes] =
      .ok { regions := [twoBoxes, { records := [checkRecord 9] }, { records := [checkRecord 8] }] } := by
  rw [from_regions_eq, if_neg (List.cons_ne_nil _ _), two_boxes_listed]

theorem two_boxes_shown : ¬ ShownInOrder (documentOrder [twoBoxes]) [twoBoxes] := by
  rw [two_boxes_in_order]
  intro shown
  have shownAsListed := shown_as_listed [twoBoxes]
  rw [two_boxes_listed] at shownAsListed
  let cm := CollateralManager.fresh { get := fun _ _ => .error .internalError } fun _ => none
  have lined : ∀ productId info, cm.targetInfo productId = some info → Info.OneLined info := by
    intro productId info known
    cases known
  obtain ⟨back, printed, read⟩ :=
    shown _ plainFiles twoBoxesFile cm (fun _ => "") .compact [] [] "dump.bin" two_boxes_stored
  obtain ⟨otherBack, otherPrinted, otherRead⟩ :=
    shownAsListed _ plainFiles twoBoxesFile cm (fun _ => "") .compact [] [] "dump.bin" two_boxes_stored
  have same := List.append_cancel_left (List.append_cancel_left (printed.symm.trans otherPrinted))
  have numbers := (read lined).symm.trans ((congrArg _ same).trans (otherRead lined))
  have cells := congrArg (List.map fun row => row.elim [] fun item => item.2.2) (Option.some.inj numbers)
  exact absurd cells (by decide +kernel)

theorem two_boxes_unpacked : ¬ UnpackedInOrder (documentOrder [twoBoxes]) [twoBoxes] := by
  rw [two_boxes_in_order]
  intro unpacked
  have unpackedAsListed := unpacked_as_listed [twoBoxes]
  rw [two_boxes_listed] at unpackedAsListed
  have returned : (Unpack.unpackCrashlog plainFiles "dump.bin" twoBoxesFile).1 = .ok () := by decide +kernel
  have file := (unpacked _ _ plainFiles _ plain_files_lawful twoBoxesFile "dump.bin" two_boxes_stored
    returned).1 1 { records := [checkRecord 8] } rfl
  have listedFile := (unpackedAsListed _ _ plainFiles _ plain_files_lawful twoBoxesFile "dump.bin" two_boxes_stored
    returned).1 1 { records := [checkRecord 9] } rfl
  exact absurd (Except.ok.inj (file.symm.trans listedFile)) (by decide +kernel)

theorem two_boxes_decoded : ¬ @DecodedInOrder .ascii (documentOrder [twoBoxes]) [twoBoxes] := by
  let _ : UnicodeTables := .ascii
  rw [two_boxes_in_order]
  intro decoded
  have decodedAsListed := decoded_as_listed [twoBoxes]
  rw [two_boxes_listed] at decodedAsListed
  let crashlog : CrashLog := { regions := [twoBoxes, { records := [checkRecord 9] }, { records := [checkRecord 8] }] }
  have ended : crashlog.decodeWithoutCm.isSome := by decide +kernel
  obtain ⟨root, whole⟩ := Option.isSome_iff_exists.mp ended
  have built : BuiltFrom crashlog [twoBoxes] := ⟨crashlog, two_boxes_built, rfl⟩
  have first := decoded.headers crashlog root built whole twoBoxes.records (checkRecord 8) _ rfl
  have listedFirst := decodedAsListed.headers crashlog root built whole twoBoxes.records (checkRecord 9) _ rfl
  have place : ∀ revision ∈ [8, 9], (checkRecord revision).location ++ [Text.instanceName
      (checkRecord revision).typeName ((checkRecord revision).earlier twoBoxes.records)] = ["mca"] := by
    decide +kernel
  rw [place 8 (by decide)] at first
  rw [place 9 (by decide)] at listedFirst
  have revisions := congrArg (fun node => node.getValueByPath "hdr.version.revision")
    (Option.some.inj (first.symm.trans listedFirst))
  exact absurd revisions (by decide +kernel)

/-- The region of the second box is the first one behind the boxes wherever
regions are numbered, and its record is the first machine check record. -/
theorem second_box_numbered_first :
    ¬ (∀ crashlog, fromRegions [twoBoxes] = .ok crashlog → crashlog.regions = documentOrder [twoBoxes]) ∧
      ¬ ShownInOrder (documentOrder [twoBoxes]) [twoBoxes] ∧
      ¬ UnpackedInOrder (documentOrder [twoBoxes]) [twoBoxes] ∧
      ¬ @DecodedInOrder .ascii (documentOrder [twoBoxes]) [twoBoxes] := by
  refine ⟨fun listed => ?_, two_boxes_shown, two_boxes_unpacked, two_boxes_decoded⟩
  have ordered := listed _ two_boxes_built
  rw [two_boxes_in_order] at ordered
  exact absurd ordered (by decide +kernel)

end CrashLog

end Crashlog
