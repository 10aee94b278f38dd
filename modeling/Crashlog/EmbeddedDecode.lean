import Crashlog.EmbeddedTree

/-!
# Decoding with the embedded tree

A record is decoded with what the tree holds at the highest security level
under the product and the variant of its header and the path of its layout.
All names in it are names of directories when those of the product information
are, so the embedded tree and the directories give the same definitions, and
decoding gives the same registers.
-/

namespace Crashlog

open Bytes CollateralManager

/-! ## What decoding depends on -/

/-- The files that hold decode definitions. -/
def decodeDefs : List String :=
  ["layout.csv", "layout_thread.csv", "layout_core.csv", "layout_sq.csv", "layout_module.csv"]

/-- The products are the same, and so are the layouts of every header. -/
structure SameDefinitions [UnicodeTables] (start other : CollateralManager) : Prop where
  targetInfo : start.targetInfo = other.targetInfo
  layouts : ∀ (header : Header) paths, header.decodeDefinitionsPaths start = .ok paths → ∀ path ∈ paths,
    ∀ decodeDef ∈ decodeDefs,
      (start.answer (.header header (path.push decodeDef))).toOption =
        (other.answer (.header header (path.push decodeDef))).toOption

namespace Record.Straight

variable [UnicodeTables] {start other : CollateralManager} {record : Record} {decodeDef : String}

theorem decode_with_decode_def_congr (same : SameDefinitions start other) (known : decodeDef ∈ decodeDefs)
    (offset : Nat) :
    decodeWithDecodeDef start record decodeDef offset = decodeWithDecodeDef other record decodeDef offset := by
  have paths : record.header.decodeDefinitionsPaths start = record.header.decodeDefinitionsPaths other := by
    simp only [Header.decodeDefinitionsPaths, Header.die_congr same.targetInfo]
  unfold decodeWithDecodeDef
  rw [← paths]
  cases found : record.header.decodeDefinitionsPaths start with
  | error error => rfl
  | ok paths =>
      have layouts : ∀ some_paths : List ItemPath, (∀ path ∈ some_paths, path ∈ paths) →
          layout start record decodeDef some_paths = layout other record decodeDef some_paths := by
        intro some_paths
        induction some_paths with
        | nil => exact fun _ => rfl
        | cons path rest ih =>
            intro inside
            rw [List.forall_mem_cons] at inside
            have here := same.layouts record.header paths found path inside.1 decodeDef known
            have later := ih inside.2
            unfold layout at later ⊢
            rw [List.findSome?_cons, List.findSome?_cons, here, later]
      simp only [decodeWithPaths, layouts paths fun _ member => member]

theorem merge_extension_congr (same : SameDefinitions start other) (offset : Nat) (root : Node)
    {names : List String} (known : ∀ name ∈ names, name ∈ decodeDefs) :
    mergeExtension start record offset root names = mergeExtension other record offset root names := by
  induction names with
  | nil => rfl
  | cons name rest ih =>
      rw [List.forall_mem_cons] at known
      simp only [mergeExtension, decode_with_decode_def_congr same known.1, ih known.2]

theorem extend_congr (same : SameDefinitions start other) (root : Node) :
    extend start record root = extend other record root := by
  unfold extend
  cases record.header.extendedRecordOffset with
  | none => rfl
  | some offset => exact merge_extension_congr same offset root (by decide)

theorem decode_subsections_congr (same : SameDefinitions start other) (sect : Node) {names : List String}
    (known : ∀ name ∈ names, "layout_" ++ name ++ ".csv" ∈ decodeDefs) :
    decodeSubsections start record sect names = decodeSubsections other record sect names := by
  induction names with
  | nil => rfl
  | cons name rest ih =>
      rw [List.forall_mem_cons] at known
      simp only [decodeSubsections, decode_with_decode_def_congr same known.1, ih known.2, extend_congr same]

theorem decode_congr (same : SameDefinitions start other) (record : Record) :
    decode start record = decode other record := by
  have core : decodeAsCoreRecord start record = decodeAsCoreRecord other record := by
    unfold decodeAsCoreRecord
    cases record.header.recordType with
    | error error => rfl
    | ok recordType => exact decode_subsections_congr same _ (by decide)
  unfold decode
  rw [core, decode_with_decode_def_congr same (by decide), get_root_path_using_cm_congr same.targetInfo]

end Record.Straight

theorem CrashLog.decode_straight_congr [UnicodeTables] {start other : CollateralManager}
    (same : SameDefinitions start other) (crashlog : CrashLog) :
    crashlog.decodeStraight start = crashlog.decodeStraight other := by
  unfold decodeStraight
  simp only [Record.Straight.decode_congr same]

/-! ## Names of directories -/

/-- The names in the product information are names of directories; of a die,
it is the name without its number. -/
structure TargetInfo.Plain [UnicodeTables] (info : TargetInfo) : Prop where
  product : Proper info.product
  variant : Proper info.variant
  die : ∀ dieId name, info.dieId dieId = some name → Proper (Text.trimEndNumeric name)

theorem proper_number (n : Nat) : Proper (toString n) := by
  have digits : ∀ c ∈ (toString n).toList, c.isDigit := fun _ => Text.nat_digits
  have chars : (toString n).toList ≠ [] := by
    rw [Nat.toString_eq_repr]
    simp
  obtain ⟨first, rest, whole⟩ := List.exists_cons_of_ne_nil chars
  have digit : first.isDigit := digits first (by rw [whole]; exact List.mem_cons_self)
  refine ⟨?_, ?_, ?_, ?_⟩
  · intro empty
    rw [empty] at chars
    exact chars rfl
  · intro dot
    rw [dot] at whole
    cases whole
    exact absurd digit (by decide)
  · intro dots
    rw [dots] at whole
    cases whole
    exact absurd digit (by decide)
  · exact fun slash => absurd (digits _ slash) (by decide)

theorem proper_record_type {header : Header} {name : String} (known : header.recordType = .ok name) :
    Proper name := by
  have all : ∀ name ∈ ["PMC", "PMC_FW_Trace", "Punit", "PCORE", "ECORE", "UNCORE", "PMC_TRACE", "TCSS",
      "PMC_RST", "PCODE", "CRASHLOG_AGENT", "BOX", "MCA", "record"], Proper name := by decide
  have listed := Record.record_type_cases { header }
  rw [known] at listed
  exact all name listed

section Plain

variable [UnicodeTables] {cm : CollateralManager}

/-- All product information that is known is plain. -/
def PlainProducts (targetInfo : UInt32 → Option TargetInfo) : Prop :=
  ∀ productId info, targetInfo productId = some info → info.Plain

theorem plain_die {header : Header} (plain : PlainProducts cm.targetInfo) {die : String}
    (known : header.die cm = some die) : Proper (Text.trimEndNumeric die) := by
  obtain ⟨dieId, _, named⟩ := Option.bind_eq_some_iff.mp known
  obtain ⟨info, found, held⟩ := Option.bind_eq_some_iff.mp named
  exact (plain _ info found).die dieId die held

/-- The directories of the decode definitions and the files in them. -/
theorem plain_layout {header : Header} {paths : List ItemPath} (plain : PlainProducts cm.targetInfo)
    (found : header.decodeDefinitionsPaths cm = .ok paths) :
    ∀ path ∈ paths, ∀ decodeDef ∈ decodeDefs, (path.push decodeDef).Plain := by
  obtain ⟨recordType, known, listed⟩ := except_bind_eq_ok.mp found
  have properType := proper_record_type known
  have files : ∀ decodeDef ∈ decodeDefs, Proper decodeDef := by decide
  have pushed : ∀ elements : List String, (∀ name ∈ elements, Proper name) → ∀ decodeDef ∈ decodeDefs,
      (ItemPath.push { elements } decodeDef).Plain := by
    intro elements proper decodeDef member
    refine ⟨List.append_ne_nil_of_right_ne_nil _ (List.cons_ne_nil _ _), ?_⟩
    change ∀ name ∈ elements ++ [decodeDef], Proper name
    intro name inside
    rcases List.mem_append.mp inside with front | last
    · exact proper name front
    · rw [List.mem_singleton.mp last]
      exact files decodeDef member
  have number := proper_number header.revision.toNat
  have root : Proper "decode-defs" := by decide
  have all : Proper "all" := by decide
  cases die : header.die cm with
  | some name =>
      rw [die] at listed
      cases listed
      intro path member
      rw [List.mem_singleton.mp member]
      refine pushed _ ?_
      simp only [List.forall_mem_cons]
      exact ⟨root, properType, plain_die plain die, number, by simp⟩
  | none =>
      rw [die] at listed
      cases listed
      intro path member
      rcases List.mem_cons.mp member with rfl | other
      · refine pushed _ ?_
        simp only [List.forall_mem_cons]
        exact ⟨root, properType, number, by simp⟩
      · rw [List.mem_singleton.mp other]
        refine pushed _ ?_
        simp only [List.forall_mem_cons]
        exact ⟨root, properType, all, by simp⟩

/-- The `PVSS` of a header, at every security level. -/
theorem plain_pvss {header : Header} {pvss : PVSS} (plain : PlainProducts cm.targetInfo)
    (known : header.pvss cm = .ok pvss) : ∀ security ∈ securityLevels, PVSS.Plain { pvss with security } := by
  have levels : ∀ security ∈ securityLevels, Proper security := by decide
  have all : Proper "all" := by decide
  have named : Proper pvss.product ∧ Proper pvss.variant ∧ Proper pvss.stepping := by
    unfold Header.pvss Header.product Header.variant at known
    cases info : cm.targetInfo header.productId with
    | none =>
        simp only [info, Option.map_none, okOr] at known
        split at known
        · cases known
          exact ⟨all, all, all⟩
        · cases known
    | some own =>
        simp only [info, Option.map_some, okOr] at known
        cases known
        have names := plain _ own info
        exact ⟨names.product, names.variant, all⟩
  intro security member name inside
  simp only [PVSS.names, List.mem_cons, List.not_mem_nil, or_false] at inside
  rcases inside with rfl | rfl | rfl | rfl
  · exact named.1
  · exact named.2.1
  · exact named.2.2
  · exact levels _ member

end Plain

/-! ## Managers of both trees -/

/-- Only the items that are found count. -/
theorem highest_congr {left right : CollateralTree} {pvss : PVSS} {path : ItemPath}
    (same : ∀ security ∈ securityLevels,
      (left.get { pvss with security } path).toOption = (right.get { pvss with security } path).toOption) :
    left.highest pvss path = right.highest pvss path := by
  have each : ∀ levels : List String, (∀ security ∈ levels, security ∈ securityLevels) →
      (levels.findSome? fun security => (left.get { pvss with security } path).toOption) =
        levels.findSome? fun security => (right.get { pvss with security } path).toOption := by
    intro levels
    induction levels with
    | nil => exact fun _ => rfl
    | cons security rest ih =>
        intro inside
        rw [List.forall_mem_cons] at inside
        rw [List.findSome?_cons, List.findSome?_cons, same security inside.1, ih inside.2]
  rw [CollateralTree.highest_eq, CollateralTree.highest_eq, each securityLevels fun _ member => member]

theorem answer_header_congr {left right : CollateralManager} {header : Header} {path : ItemPath}
    (product : header.pvss left = header.pvss right)
    (same : ∀ pvss, header.pvss right = .ok pvss → ∀ security ∈ securityLevels,
      (left.tree.get { pvss with security } path).toOption = (right.tree.get { pvss with security } path).toOption) :
    left.answer (.header header path) = right.answer (.header header path) := by
  have highest (cm : CollateralManager) : cm.answer (.header header path) =
      (header.pvss cm).bind fun pvss => cm.tree.highest pvss path := by
    unfold answer
    change Except.bind ((header.pvss cm).map _) _ = _
    cases header.pvss cm <;> rfl
  rw [highest, highest, product]
  cases held : header.pvss right with
  | error error => rfl
  | ok pvss => exact highest_congr (same pvss held)

def EmbeddedTree.searchable (tree : EmbeddedTree) : SearchableTree where
  get := tree.get
  search := tree.search

namespace CollateralVolume

open Build

def searchable (volume : CollateralVolume) : SearchableTree where
  get := volume.tree.get volume.fileSystem.toFileSystem
  search := volume.tree.search volume.fileSystem

variable {volume : CollateralVolume} {tree : EmbeddedTree} {pvss : PVSS} {item : ItemPath}

theorem searchable_get : volume.searchable.get = volume.tree.get volume.fileSystem.toFileSystem := by
  simp only [searchable]

theorem searchable_search : volume.searchable.search = volume.tree.search volume.fileSystem := by
  simp only [searchable]

theorem embedded_searchable_get : tree.searchable.get = tree.get := by
  simp only [EmbeddedTree.searchable]

theorem embedded_searchable_search : tree.searchable.search = tree.search := by
  simp only [EmbeddedTree.searchable]

theorem included_all (product : String) : Included [] product := .inl rfl

theorem same_item (embedded : embedCollateralTree [] volume.collateral = some tree) (plain : pvss.Plain)
    (plainItem : item.Plain) :
    (tree.searchable.get pvss item).toOption = (volume.searchable.get pvss item).toOption := by
  rw [searchable_get, embedded_searchable_get, embedded_get embedded plain plainItem, if_pos (included_all _)]

/-- What is listed is at directories. -/
theorem plain_of_listed (listed : pvss ∈ volume.hits item) : pvss.Plain := by
  obtain ⟨entry, walked⟩ := Option.isSome_iff_exists.mp (mem_hits_iff.mp listed)
  have proper := volume.collateral_sound.proper_of_walk walked
  exact fun name member => proper name (List.mem_append_left _ member)

theorem plain_target_info : TargetInfo.path.Plain := ⟨by decide, by decide⟩

theorem readable_of_listed (noDirectory : volume.NoDirectory item) (plainItem : item.Plain)
    (listed : pvss ∈ volume.hits item) : ∃ content, volume.searchable.get pvss item = .ok content := by
  rw [searchable_get]
  have found : volume.tree.get volume.fileSystem.toFileSystem pvss item = _ :=
    get_eq (plain_of_listed listed) plainItem
  obtain ⟨entry, held⟩ := Option.isSome_iff_exists.mp (mem_hits_iff.mp listed)
  rw [held] at found
  cases entry with
  | file content => exact ⟨content, found⟩
  | dir entries => exact absurd held (noDirectory pvss entries)

/-- The layouts are at plain places, so both trees have the same ones. -/
theorem same_definitions [UnicodeTables] (embedded : embedCollateralTree [] volume.collateral = some tree)
    {targetInfo : UInt32 → Option TargetInfo} (plain : PlainProducts targetInfo) :
    SameDefinitions (fresh tree.searchable.toCollateralTree targetInfo)
      (fresh volume.searchable.toCollateralTree targetInfo) where
  targetInfo := by rw [fresh_target_info, fresh_target_info]
  layouts header paths found path member decodeDef known := by
    have plainItem := plain_layout plain found path member decodeDef known
    have products : header.pvss (fresh tree.searchable.toCollateralTree targetInfo) =
        header.pvss (fresh volume.searchable.toCollateralTree targetInfo) :=
      pvss_congr (by rw [fresh_target_info, fresh_target_info])
    refine congrArg Except.toOption (answer_header_congr products fun pvss held security level => ?_)
    exact same_item embedded (plain_pvss plain held security level) plainItem

variable [reader : TargetInfoReader]

theorem described_of_read {tree : CollateralTree} {item : List Byte} {fields : TargetInfoFields} {productId : UInt32}
    (found : tree.get pvss TargetInfo.path = .ok item) (read : reader.fromSlice item = some fields)
    (numbered : (TargetInfo.deserialize fields).parseProductId = some productId) :
    described tree pvss = some (productId, TargetInfo.deserialize fields) := by
  simp [described, found, read, numbered, Except.toOption]

/-- Both managers start with the same product information. -/
theorem managers_alike (embedded : embedCollateralTree [] volume.collateral = some tree)
    (noDirectory : volume.NoDirectory TargetInfo.path)
    (alike : DescribedAlike volume.searchable.toCollateralTree (volume.hits TargetInfo.path)) :
    let targetInfo := Insertion.insertAll (fun _ => none)
      ((volume.hits TargetInfo.path).filterMap (described volume.searchable.toCollateralTree))
    new volume.searchable = .ok (fresh volume.searchable.toCollateralTree targetInfo) ∧
      new tree.searchable = .ok (fresh tree.searchable.toCollateralTree targetInfo) := by
  obtain ⟨hits, listed, searched, found, perm⟩ := embedded_search embedded plain_target_info noDirectory
  have listedEq : listed = volume.hits TargetInfo.path :=
    Except.ok.inj (found.symm.trans (search_eq (embed_leveled embedded) plain_target_info))
  subst listedEq
  rw [List.filter_eq_self.mpr fun _ _ => decide_eq_true (included_all _)] at perm
  have same : ∀ pvss ∈ hits, (tree.searchable.get pvss TargetInfo.path).toOption =
      (volume.searchable.get pvss TargetInfo.path).toOption := fun pvss member =>
    same_item embedded (plain_of_listed (perm.mem_iff.mp member)) plain_target_info
  have readable : ∀ pvss ∈ volume.hits TargetInfo.path,
      ¬ Unreadable volume.searchable.toCollateralTree pvss := by
    rintro pvss member ⟨error, failed⟩
    obtain ⟨content, found⟩ := readable_of_listed noDirectory plain_target_info member
    rw [found] at failed
    cases failed
  have readableEmbedded : ∀ pvss ∈ hits, ¬ Unreadable tree.searchable.toCollateralTree pvss := by
    rintro pvss member ⟨error, failed⟩
    obtain ⟨content, found⟩ := readable_of_listed noDirectory plain_target_info (perm.mem_iff.mp member)
    have agree := same pvss member
    rw [found, failed] at agree
    cases agree
  have described : hits.filterMap (described tree.searchable.toCollateralTree) =
      hits.filterMap (described volume.searchable.toCollateralTree) := by
    refine List.filterMap_congr fun pvss member => ?_
    rw [CollateralManager.described, CollateralManager.described, same pvss member]
  constructor
  · rw [new, updateTargetInfo, searchable_search, found]
    change Except.bind (updateTargetInfoLoop volume.searchable.toCollateralTree _ _) _ = _
    rw [loop_readable readable]
    rfl
  · rw [new, updateTargetInfo, embedded_searchable_search, searched]
    change Except.bind (updateTargetInfoLoop tree.searchable.toCollateralTree _ _) _ = _
    rw [loop_readable readableEmbedded, described, Insertion.insert_all_perm alike.agree (perm.filterMap _)]
    rfl

/-- Decoding with the embedded tree is decoding with the directories it was built from. -/
theorem decode_embedded [UnicodeTables] (embedded : embedCollateralTree [] volume.collateral = some tree)
    (noDirectory : volume.NoDirectory TargetInfo.path)
    (alike : DescribedAlike volume.searchable.toCollateralTree (volume.hits TargetInfo.path))
    (plain : ∀ pvss ∈ volume.hits TargetInfo.path, ∀ productId info,
      described volume.searchable.toCollateralTree pvss = some (productId, info) → info.Plain) :
    ∃ manager embeddedManager, new volume.searchable = .ok manager ∧ new tree.searchable = .ok embeddedManager ∧
      embeddedManager.targetInfo = manager.targetInfo ∧
      ∀ crashlog : CrashLog, (crashlog.decode embeddedManager).map Prod.fst = (crashlog.decode manager).map Prod.fst := by
  obtain ⟨fromDirectories, fromEmbedded⟩ := managers_alike embedded noDirectory alike
  refine ⟨_, _, fromDirectories, fromEmbedded, by rw [fresh_target_info, fresh_target_info], fun crashlog => ?_⟩
  rw [crashlog.decode_stateless.returned _ (fresh_serves _ _), crashlog.decode_stateless.returned _ (fresh_serves _ _)]
  refine CrashLog.decode_straight_congr (same_definitions embedded ?_) crashlog
  intro productId info held
  have member := (Insertion.mem_of_insert_all held).resolve_left (by simp)
  obtain ⟨pvss, listed, found⟩ := List.mem_filterMap.mp member
  exact plain pvss listed productId info found

end CollateralVolume

/-! ## The product information of one product -/

@[reducible] def oneProductReader : TargetInfoReader where
  fromSlice item :=
    if item = oneProductInfo then
      some { product := "XYZ", productId := "0x7a", dieId := [("0", "io0")] }
    else none

theorem one_product_listed : oneProduct.hits TargetInfo.path = [{ product := "XYZ", security := "green" }] := by
  rfl

theorem one_product_no_directory : oneProduct.NoDirectory TargetInfo.path := by
  intro pvss entries held
  have listed := (Entry.mem_descend_iff oneProduct.collateral_sound).mpr ⟨rfl, held⟩
  change _ ∈ [(_, Entry.file oneProductInfo), (["XYZ", "all", "all", "green", "crashlog", "decode-defs"], _)] at listed
  rcases List.mem_cons.mp listed with info | definitions
  · have contents := congrArg Prod.snd info
    cases contents
  · have names := congrArg Prod.fst (List.mem_singleton.mp definitions)
    have last : some "target_info.json" = some "decode-defs" := congrArg List.getLast? names
    exact absurd last (by decide)

def oneProductFields : TargetInfoFields where
  product := "XYZ"
  productId := "0x7a"
  dieId := [("0", "io0")]

theorem one_product_described :
    @described oneProductReader oneProduct.searchable.toCollateralTree { product := "XYZ", security := "green" } =
      some (0x7a, TargetInfo.deserialize oneProductFields) := by
  have plain : PVSS.Plain { product := "XYZ", security := "green" } := by decide
  have item : oneProduct.searchable.get { product := "XYZ", security := "green" } TargetInfo.path = .ok oneProductInfo := by
    rw [CollateralVolume.searchable_get, CollateralVolume.get_eq plain CollateralVolume.plain_target_info]
    rfl
  have fields : oneProductReader.fromSlice oneProductInfo = some oneProductFields := if_pos rfl
  exact @CollateralVolume.described_of_read _ oneProductReader _ _ _ _ item fields (by decide)

theorem one_product_plain : @TargetInfo.Plain .ascii (TargetInfo.deserialize oneProductFields) := by
  refine @TargetInfo.Plain.mk .ascii _ (by decide) (by decide) fun dieId name known => ?_
  have member := (Insertion.mem_of_insert_all known).resolve_left (by simp)
  have listed : oneProductFields.dieId.filterMap TargetInfo.deserializeDieId = [(0, "io0")] := by decide
  rw [listed] at member
  cases List.mem_singleton.mp member
  decide

/-- Every Crash Log is decoded alike with the one product in its directories and embedded. -/
theorem one_product_decoded_alike :
    ∃ tree manager embeddedManager, Build.embedCollateralTree [] oneProduct.collateral = some tree ∧
      @new oneProductReader oneProduct.searchable = .ok manager ∧
      @new oneProductReader tree.searchable = .ok embeddedManager ∧
      embeddedManager.targetInfo = manager.targetInfo ∧ ∀ crashlog : CrashLog,
        (@CrashLog.decode .ascii crashlog embeddedManager).map Prod.fst =
          (@CrashLog.decode .ascii crashlog manager).map Prod.fst := by
  obtain ⟨tree, embedded⟩ : ∃ tree, Build.embedCollateralTree [] oneProduct.collateral = some tree :=
    Option.isSome_iff_exists.mp (by decide)
  have alike : @DescribedAlike oneProductReader oneProduct.searchable.toCollateralTree
      (oneProduct.hits TargetInfo.path) := by
    rw [one_product_listed]
    intro first firstMember second secondMember productId left right leftFound rightFound
    rw [List.mem_singleton] at firstMember secondMember
    rw [firstMember] at leftFound
    rw [secondMember, leftFound] at rightFound
    cases rightFound
    rfl
  obtain ⟨manager, embeddedManager, decoded⟩ :=
    @CollateralVolume.decode_embedded oneProduct tree oneProductReader .ascii embedded one_product_no_directory alike
      (by
        rw [one_product_listed]
        intro pvss member productId info found
        rw [List.mem_singleton.mp member, one_product_described] at found
        cases found
        exact one_product_plain)
  exact ⟨tree, manager, embeddedManager, embedded, decoded⟩

end Crashlog
