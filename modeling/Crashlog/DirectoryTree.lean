import Crashlog.Directory
import Crashlog.FileSystemTree

/-!
# A collateral tree in a directory

The product of an item and the levels below it are directories of the
collateral tree. The tree reads them in the order in which the file system
lists them, and one that cannot be read fails the whole search. For names that
a directory can hold, looking an item up is walking down the directories.
-/

namespace Crashlog

open Bytes

/-- The file system as far as it is searched. -/
structure SearchableFileSystem extends FileSystem where
  readDir : PathBuf → Except String (List String)
  pathExists : PathBuf → Bool

namespace FileSystemTree

/-- The loop over the entries of a directory, with their names and paths. -/
def visit (fs : SearchableFileSystem) (path : PathBuf) (body : String → PathBuf → Except Error (List PVSS)) :
    Except Error (List PVSS) :=
  match fs.readDir path with
  | .error message => .error (.ioError message)
  | .ok names => (names.mapM fun name => body name (PathBuf.push path name)).map List.flatten

def search (fs : SearchableFileSystem) (tree : FileSystemTree) (item : ItemPath) : Except Error (List PVSS) :=
  visit fs tree.root fun product path =>
    visit fs path fun variant path =>
      visit fs path fun stepping path =>
        visit fs path fun security path =>
          let path := PathBuf.push (PathBuf.push path "crashlog") item.toPathBuf
          .ok (if fs.pathExists path then [{ product, variant, stepping, security }] else [])

end FileSystemTree

/-! ## The file system of a directory tree -/

/-- The file system below a root directory, seen from a current directory. -/
def Entry.fileSystem (top : Entry (List Byte)) (current : List String) : SearchableFileSystem where
  canonicalize path := (top.resolve current path).map PathBuf.ofPlace
  read path :=
    match (top.resolve current path).bind top.walk with
    | none => .error "No such file or directory"
    | some (.dir _) => .error "Is a directory"
    | some (.file content) => .ok content
  readDir path :=
    match (top.resolve current path).bind top.walk with
    | none => .error "No such file or directory"
    | some (.file _) => .error "Not a directory"
    | some (.dir entries) => .ok (entries.map Prod.fst)
  pathExists path := (top.resolve current path).isSome

/-- A volume: a sound directory tree, the current directory in it, and the
collateral tree on it. -/
structure CollateralVolume where
  top : Entry (List Byte)
  sound : top.Sound
  isDir : top.isDir
  current : List String
  tree : FileSystemTree
  rooted : tree.root ≠ ""
  place : List String
  found : top.resolve current tree.root = some place
  collateral : Entry (List Byte)
  walked : top.walk place = some collateral

namespace PVSS

def names (pvss : PVSS) : List String := [pvss.product, pvss.variant, pvss.stepping, pvss.security]

/-- Names that directories can have. -/
def Plain (pvss : PVSS) : Prop := ∀ name ∈ pvss.names, Proper name

/-- The levels of a collateral tree, from the top. -/
def ofNames : List String → PVSS
  | [product, variant, stepping, security] => { product, variant, stepping, security }
  | _ => {}

theorem names_of_names {names : List String} (levels : names.length = 4) : (ofNames names).names = names := by
  match names, levels with
  | [_, _, _, _], _ => rfl

instance (pvss : PVSS) : Decidable pvss.Plain :=
  inferInstanceAs (Decidable (∀ name ∈ pvss.names, Proper name))

theorem Plain.elements_eq {pvss : PVSS} (plain : pvss.Plain) : pvss.elements = pvss.names := by
  refine List.filter_eq_self.mpr fun name member => ?_
  have proper := plain name member
  simp [proper.notDot, proper.notParent]

end PVSS

/-- An item below a directory. -/
structure ItemPath.Plain (item : ItemPath) : Prop where
  nonempty : item.elements ≠ []
  proper : ∀ name ∈ item.elements, Proper name

theorem proper_crashlog : Proper "crashlog" := by decide

namespace CollateralVolume

variable (volume : CollateralVolume)

def fileSystem : SearchableFileSystem := volume.top.fileSystem volume.current

theorem collateral_sound : volume.collateral.Sound := volume.sound.of_walk volume.walked

/-- The entry of an item, from the root of the collateral tree. -/
def entry (pvss : PVSS) (item : ItemPath) : Option (Entry (List Byte)) :=
  volume.collateral.walk (pvss.names ++ "crashlog" :: item.elements)

theorem canonicalize_eq (path : PathBuf) :
    volume.fileSystem.canonicalize path = (volume.top.resolve volume.current path).map PathBuf.ofPlace := rfl

/-- There are no links, and canonical paths are their own. -/
theorem canonical : volume.fileSystem.toFileSystem.Canonical := by
  intro path absolute resolved
  obtain ⟨place, found, rfl⟩ := Option.map_eq_some_iff.mp resolved
  obtain ⟨entry, walked⟩ := Entry.resolve_walk found
  exact congrArg (Option.map PathBuf.ofPlace) (Entry.resolve_of_place volume.current volume.sound volume.isDir walked)

theorem link_free : FileSystemTree.LinkFree volume.fileSystem.toFileSystem volume.current := by
  intro path absolute resolved
  obtain ⟨place, found, rfl⟩ := Option.map_eq_some_iff.mp resolved
  obtain ⟨entry, walked⟩ := Entry.resolve_walk found
  rw [PathBuf.components_of_place (volume.sound.proper_of_walk walked), Entry.resolve_follow found]

variable {volume} {pvss : PVSS} {item : ItemPath}

/-- A `PVSS` without separators does not lead out of the collateral tree. -/
theorem stays_inside (single : ∀ name ∈ pvss.elements, '/' ∉ name.toList) (item : ItemPath) :
    FileSystemTree.StaysInside volume.fileSystem.toFileSystem volume.tree pvss item := by
  have resolved : volume.fileSystem.canonicalize volume.tree.root = some (PathBuf.ofPlace volume.place) := by
    rw [canonicalize_eq, volume.found]
    rfl
  exact FileSystemTree.names_stay_inside volume.link_free resolved single item

/-! ## Looking an item up -/

theorem relative_base_eq (plain : pvss.Plain) :
    volume.tree.relativeBase pvss = PathBuf.extend volume.tree.root (pvss.names ++ ["crashlog"]) := by
  rw [FileSystemTree.relativeBase, PVSS.toPathBuf, plain.elements_eq, PathBuf.components_collect plain,
    PathBuf.extend, PathBuf.extend, List.foldl_append]
  rfl

theorem resolve_base (plain : pvss.Plain) :
    volume.top.resolve volume.current (volume.tree.relativeBase pvss) =
      (volume.collateral.walk (pvss.names ++ ["crashlog"])).map fun _ =>
        volume.place ++ (pvss.names ++ ["crashlog"]) := by
  rw [relative_base_eq plain]
  refine Entry.resolve_names volume.rooted volume.found volume.walked fun name member => ?_
  rcases List.mem_append.mp member with level | last
  · exact plain name level
  · rw [List.mem_singleton.mp last]
    exact proper_crashlog

/-- Where an item is, seen from the root directory. -/
def itemPlace (volume : CollateralVolume) (pvss : PVSS) (item : ItemPath) : List String :=
  volume.place ++ (pvss.names ++ ["crashlog"]) ++ item.elements

theorem entry_eq (pvss : PVSS) (item : ItemPath) :
    volume.entry pvss item =
      (volume.collateral.walk (pvss.names ++ ["crashlog"])).bind fun base => base.walk item.elements := by
  rw [entry, ← Entry.walk_append, List.append_assoc]
  rfl

theorem walk_item_place : volume.top.walk (volume.itemPlace pvss item) = volume.entry pvss item := by
  rw [itemPlace, List.append_assoc, Entry.walk_append, volume.walked, Option.bind_some, Entry.walk_append, entry_eq]

theorem of_place_ne_empty {place : List String} (proper : ∀ name ∈ place, Proper name) : PathBuf.ofPlace place ≠ "" := by
  intro empty
  have components := PathBuf.components_of_place proper
  rw [empty] at components
  exact absurd components (List.cons_ne_nil "/" place).symm

theorem build_path_eq (plain : pvss.Plain) (plainItem : item.Plain) :
    volume.tree.buildPath volume.fileSystem.toFileSystem pvss item =
      (volume.entry pvss item).map fun _ => PathBuf.ofPlace (volume.itemPlace pvss item) := by
  rw [FileSystemTree.buildPath, canonicalize_eq, resolve_base plain, entry_eq]
  cases held : volume.collateral.walk (pvss.names ++ ["crashlog"]) with
  | none => rfl
  | some directory =>
      let place := volume.place ++ (pvss.names ++ ["crashlog"])
      have walked : volume.top.walk place = some directory := by
        rw [Entry.walk_append, volume.walked, Option.bind_some, held]
      have proper := volume.sound.proper_of_walk walked
      have found := Entry.resolve_of_place volume.current volume.sound volume.isDir walked
      have below := Entry.resolve_names (of_place_ne_empty proper) found walked plainItem.proper
      have opened : volume.fileSystem.canonicalize (PathBuf.extend (PathBuf.ofPlace place) item.elements) =
          ((directory.walk item.elements).map fun _ => place ++ item.elements).map PathBuf.ofPlace := by
        rw [← below, canonicalize_eq]
      change (volume.fileSystem.canonicalize (PathBuf.extend (PathBuf.ofPlace place)
        (PathBuf.components item.toPathBuf))).bind _ = _
      rw [ItemPath.toPathBuf, PathBuf.components_collect plainItem.proper, opened, Option.bind_some]
      cases reached : directory.walk item.elements with
      | none => rfl
      | some entry =>
          have inside : PathBuf.startsWith (PathBuf.ofPlace (place ++ item.elements)) (PathBuf.ofPlace place) := by
            have properItem : ∀ name ∈ place ++ item.elements, Proper name := by
              intro name member
              exact (List.mem_append.mp member).elim (proper name) (plainItem.proper name)
            rw [PathBuf.startsWith, PathBuf.components_of_place proper, PathBuf.components_of_place properItem,
              List.cons_prefix_cons]
            exact ⟨rfl, List.prefix_append _ _⟩
          exact if_pos inside

/-- For plain names, a lookup walks down the directories of the tree. -/
theorem get_eq (plain : pvss.Plain) (plainItem : item.Plain) :
    volume.tree.get volume.fileSystem.toFileSystem pvss item =
      match volume.entry pvss item with
      | none => .error (.missingCollateral pvss item)
      | some (.dir _) => .error (.ioError "Is a directory")
      | some (.file content) => .ok content := by
  rw [FileSystemTree.get, build_path_eq plain plainItem]
  cases held : volume.entry pvss item with
  | none => rfl
  | some entry =>
      have walked := walk_item_place.trans held
      have found := Entry.resolve_of_place volume.current volume.sound volume.isDir walked
      have read : volume.fileSystem.read (PathBuf.ofPlace (volume.itemPlace pvss item)) =
          match some entry with
          | none => .error "No such file or directory"
          | some (.dir _) => .error "Is a directory"
          | some (.file content) => .ok content := by
        change (match (volume.top.resolve volume.current (PathBuf.ofPlace (volume.itemPlace pvss item))).bind
          volume.top.walk with
          | none => _
          | some (.dir _) => _
          | some (.file content) => _) = _
        rw [found, Option.bind_some, walked]
      simp only [Option.map_some, read]
      cases entry <;> rfl

/-! ## Searching an item -/

/-- The path leads to the entry. -/
def At (volume : CollateralVolume) (path : PathBuf) (entry : Entry (List Byte)) : Prop :=
  path ≠ "" ∧ ∃ place, volume.top.resolve volume.current path = some place ∧ volume.top.walk place = some entry

namespace At

variable {path : PathBuf} {entry held : Entry (List Byte)} {name : String}

theorem root (volume : CollateralVolume) : volume.At volume.tree.root volume.collateral :=
  ⟨volume.rooted, volume.place, volume.found, volume.walked⟩

theorem extend (here : volume.At path entry) {names : List String} (proper : ∀ name ∈ names, Proper name) :
    (volume.top.resolve volume.current (PathBuf.extend path names)).isSome = (entry.walk names).isSome := by
  obtain ⟨nonempty, place, found, walked⟩ := here
  rw [Entry.resolve_names nonempty found walked proper, Option.isSome_map]

theorem push (here : volume.At path entry) (member : (name, held) ∈ entry.entries) :
    volume.At (PathBuf.push path name) held := by
  obtain ⟨nonempty, place, found, walked⟩ := here
  have sound := volume.sound.of_walk walked
  have proper := sound.proper member
  have got := sound.get_eq_some_iff.mpr member
  refine ⟨Entry.push_ne_empty nonempty proper, place ++ [name], ?_, ?_⟩
  · rw [Entry.resolve_push nonempty proper, found, Option.bind_some, Entry.step_down walked proper, got]
    rfl
  · rw [Entry.walk_append, walked, Option.bind_some, Entry.walk_single, got]

theorem read_dir (here : volume.At path entry) (directory : entry.isDir) :
    volume.fileSystem.readDir path = .ok (entry.entries.map Prod.fst) := by
  obtain ⟨_, place, found, walked⟩ := here
  change (match (volume.top.resolve volume.current path).bind volume.top.walk with
    | none => _
    | some (.file _) => _
    | some (.dir entries) => _) = _
  rw [found, Option.bind_some, walked]
  cases entry with
  | file content => cases directory
  | dir entries => rfl

/-- The loop over a directory goes over its entries, where it does not fail in one of them. -/
theorem visit_eq (here : volume.At path entry) (directory : entry.isDir)
    {body : String → PathBuf → Except Error (List PVSS)} {hits : String × Entry (List Byte) → List PVSS}
    (visited : ∀ name held, (name, held) ∈ entry.entries → volume.At (PathBuf.push path name) held →
      body name (PathBuf.push path name) = .ok (hits (name, held))) :
    FileSystemTree.visit volume.fileSystem path body = .ok (entry.entries.flatMap hits) := by
  have mapped : ∀ entries : List (String × Entry (List Byte)), (∀ entry' ∈ entries, entry' ∈ entry.entries) →
      (entries.map Prod.fst).mapM (fun name => body name (PathBuf.push path name)) =
        .ok (entries.map hits) := by
    intro entries
    induction entries with
    | nil => exact fun _ => rfl
    | cons first rest ih =>
        intro inside
        have member := inside first List.mem_cons_self
        rw [List.map_cons, List.mapM_cons, visited first.1 first.2 member (here.push member),
          ih fun other later => inside other (List.mem_cons_of_mem _ later)]
        rfl
  rw [FileSystemTree.visit, here.read_dir directory]
  dsimp only
  rw [mapped _ fun _ member => member]
  rfl

/-- The item below a security level. -/
theorem path_exists (here : volume.At path entry) (plainItem : item.Plain) :
    volume.fileSystem.pathExists (PathBuf.push (PathBuf.push path "crashlog") item.toPathBuf) =
      (entry.walk ("crashlog" :: item.elements)).isSome := by
  rw [ItemPath.toPathBuf, PathBuf.push_collect plainItem.nonempty plainItem.proper]
  have proper : ∀ name ∈ "crashlog" :: item.elements, Proper name :=
    List.forall_mem_cons.mpr ⟨proper_crashlog, plainItem.proper⟩
  exact here.extend proper

end At

/-- The `PVSS` that have the item, in the order of the directories. -/
def hits (volume : CollateralVolume) (item : ItemPath) : List PVSS :=
  ((volume.collateral.descend 4).filter fun level =>
    (level.2.walk ("crashlog" :: item.elements)).isSome).map fun level => PVSS.ofNames level.1

/-- The search lists what the directories hold. -/
theorem search_eq (leveled : volume.collateral.Leveled 4) (plainItem : item.Plain) :
    volume.tree.search volume.fileSystem item = .ok (volume.hits item) := by
  have searched : volume.tree.search volume.fileSystem item = .ok (
      volume.collateral.entries.flatMap fun product =>
        product.2.entries.flatMap fun variant =>
          variant.2.entries.flatMap fun stepping =>
            stepping.2.entries.flatMap fun security =>
              if (security.2.walk ("crashlog" :: item.elements)).isSome then
                [PVSS.mk product.1 variant.1 stepping.1 security.1] else []) := by
    unfold FileSystemTree.search
    refine (At.root volume).visit_eq leveled.1 fun product products member productAt => ?_
    have productLevel := leveled.2 _ member
    refine productAt.visit_eq productLevel.1 fun variant variants member variantAt => ?_
    have variantLevel := productLevel.2 _ member
    refine variantAt.visit_eq variantLevel.1 fun stepping steppings member steppingAt => ?_
    have steppingLevel := variantLevel.2 _ member
    refine steppingAt.visit_eq steppingLevel.1 fun security securities member securityAt => ?_
    dsimp only
    rw [securityAt.path_exists plainItem]
  rw [searched, hits]
  have chosen : ∀ (levels : List (List String × Entry (List Byte))) (item : ItemPath),
      (levels.filter fun level => (level.2.walk ("crashlog" :: item.elements)).isSome).map
        (fun level => PVSS.ofNames level.1) = levels.flatMap fun level =>
          if (level.2.walk ("crashlog" :: item.elements)).isSome then [PVSS.ofNames level.1] else [] := by
    intro levels item
    induction levels with
    | nil => rfl
    | cons first rest ih =>
        rw [List.filter_cons, List.flatMap_cons, ← ih]
        split_ifs <;> rfl
  rw [chosen]
  simp only [Entry.descend, List.flatMap_assoc, List.map_flatMap, List.map_cons, List.map_nil,
    List.flatMap_cons, List.flatMap_nil, List.append_nil]
  rfl

theorem mem_hits_iff : pvss ∈ volume.hits item ↔ (volume.entry pvss item).isSome := by
  have sound := volume.collateral_sound
  rw [hits, List.mem_map, entry, Entry.walk_append]
  constructor
  · rintro ⟨⟨names, level⟩, chosen, rfl⟩
    rw [List.mem_filter, Entry.mem_descend_iff sound] at chosen
    obtain ⟨⟨deep, walked⟩, held⟩ := chosen
    rwa [PVSS.names_of_names deep, walked, Option.bind_some]
  · intro held
    obtain ⟨level, walked⟩ := Option.isSome_iff_exists.mp (Option.isSome_of_isSome_bind held)
    rw [walked, Option.bind_some] at held
    exact ⟨(pvss.names, level), List.mem_filter.mpr ⟨(Entry.mem_descend_iff sound).mpr ⟨rfl, walked⟩, held⟩, rfl⟩

theorem hits_nodup : (volume.hits item).Nodup := by
  have sound := volume.collateral_sound
  have places := Entry.descend_nodup 4 sound
  have names : ((volume.hits item).map PVSS.names).Nodup := by
    have same : (volume.hits item).map PVSS.names =
        ((volume.collateral.descend 4).filter fun level =>
          (level.2.walk ("crashlog" :: item.elements)).isSome).map Prod.fst := by
      rw [hits, List.map_map]
      refine List.map_congr_left fun level chosen => ?_
      have member := (List.mem_filter.mp chosen).1
      exact PVSS.names_of_names ((Entry.mem_descend_iff sound).mp member).1
    rw [same]
    exact places.sublist (List.filter_sublist.map _)
  exact names.of_map _

end CollateralVolume

end Crashlog
