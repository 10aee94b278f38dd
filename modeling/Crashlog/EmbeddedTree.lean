import Crashlog.DirectoryTree
import Crashlog.Session
import Crashlog.TargetInfo
import Mathlib.Data.List.AList

/-!
# The embedded collateral tree

The build script goes over the directories of the collateral tree and writes
one insertion for every file it finds below `crashlog`. The tree that these
insertions make has the files of the directories, under their `PVSS` and the
names of their path. So decoding with the embedded tree is decoding with the
directories, as long as the product information holds names of directories.
-/

namespace Crashlog

open Bytes

/-! ## The registry -/

abbrev Items := AList fun _ : ItemPath => List Byte

structure EmbeddedTree where
  registry : AList fun _ : PVSS => Items

namespace EmbeddedTree

def empty : EmbeddedTree := { registry := ∅ }

def insertItem (tree : EmbeddedTree) (product variant stepping security path : String) (content : List Byte) :
    EmbeddedTree :=
  let pvss : PVSS := { product, variant, stepping, security }
  let registry := if (tree.registry.lookup pvss).isNone then tree.registry.insert pvss ∅ else tree.registry
  match registry.lookup pvss with
  | some items => { registry := registry.insert pvss (items.insert (ItemPath.fromStr path) content) }
  | none => { registry }

def get (tree : EmbeddedTree) (pvss : PVSS) (item : ItemPath) : Except Error (List Byte) := do
  let items ← okOr (tree.registry.lookup pvss) (.missingCollateral pvss item)
  okOr (items.lookup item) (.missingCollateral pvss item)

def search (tree : EmbeddedTree) (item : ItemPath) : Except Error (List PVSS) :=
  .ok (tree.registry.keys.filter fun pvss =>
    ((tree.registry.lookup pvss).bind fun items => items.lookup item).isSome)

end EmbeddedTree

/-! ## The build script -/

/-- An item that the build script visits. The content is missing where the
path leads nowhere. -/
structure VisitedItem where
  product : String
  variant : String
  stepping : String
  security : String
  path : List String
  content : Option (List Byte)

namespace Build

mutual

/-- The files below an entry, with the names that lead to them. -/
def visitDirs : Entry (List Byte) → List (List String × List Byte)
  | .file content => [([], content)]
  | .dir entries => visitEntries entries

def visitEntries : List (String × Entry (List Byte)) → List (List String × List Byte)
  | [] => []
  | (name, entry) :: rest =>
      (visitDirs entry).map (fun below => (name :: below.1, below.2)) ++ visitEntries rest

end

/-- A path that is no directory is visited itself, also where nothing is there. -/
def visitPath : Option (Entry (List Byte)) → List (List String × Option (List Byte))
  | none => [([], none)]
  | some entry => (visitDirs entry).map fun below => (below.1, some below.2)

/-- The loop over a directory; a file cannot be listed and fails the build. -/
def visit (entry : Entry (List Byte)) (body : String → Entry (List Byte) → Option (List VisitedItem)) :
    Option (List VisitedItem) :=
  match entry with
  | .file _ => none
  | .dir entries => (entries.mapM fun entry => body entry.1 entry.2).map List.flatten

def visitCollateralTree (root : Entry (List Byte)) : Option (List VisitedItem) :=
  visit root fun product entry =>
    visit entry fun variant entry =>
      visit entry fun stepping entry =>
        visit entry fun security entry =>
          some ((visitPath (entry.get "crashlog")).map fun below =>
            { product, variant, stepping, security, path := below.1, content := below.2 })

/-- No requested product stands for all products. A file that is missing when
it is included fails the build. -/
def embedItem (requestedProducts : List String) (tree : EmbeddedTree) (item : VisitedItem) : Option EmbeddedTree :=
  if !requestedProducts.isEmpty && !requestedProducts.contains item.product then some tree
  else item.content.map fun content =>
    tree.insertItem item.product item.variant item.stepping item.security (String.intercalate "/" item.path) content

def embedCollateralTree (requestedProducts : List String) (root : Entry (List Byte)) : Option EmbeddedTree := do
  let items ← visitCollateralTree root
  items.foldlM (embedItem requestedProducts) EmbeddedTree.empty

end Build

/-! ## What an insertion adds -/

namespace EmbeddedTree

/-- The item of an index. -/
def find (tree : EmbeddedTree) (index : PVSS × ItemPath) : Option (List Byte) :=
  (tree.registry.lookup index.1).bind fun items => items.lookup index.2

variable {tree : EmbeddedTree} {pvss : PVSS} {item : ItemPath}

theorem get_to_option (tree : EmbeddedTree) (pvss : PVSS) (item : ItemPath) :
    (tree.get pvss item).toOption = tree.find (pvss, item) := by
  unfold get find
  cases tree.registry.lookup pvss with
  | none => rfl
  | some items => cases held : items.lookup item <;> simp [okOr, held, bind, Except.bind, Except.toOption]

/-- The items of the `PVSS`, none to begin with, and one more. -/
theorem insert_item_registry (tree : EmbeddedTree) (product variant stepping security path : String)
    (content : List Byte) (pvss : PVSS) :
    (tree.insertItem product variant stepping security path content).registry.lookup pvss =
      if pvss = { product, variant, stepping, security } then
        some (((tree.registry.lookup pvss).getD ∅).insert (ItemPath.fromStr path) content)
      else tree.registry.lookup pvss := by
  unfold insertItem
  dsimp only
  generalize PVSS.mk product variant stepping security = own
  cases held : tree.registry.lookup own with
  | none =>
      simp only [Option.isNone_none, if_true, AList.lookup_insert]
      split_ifs with same
      · subst same
        rw [AList.lookup_insert, held]
        rfl
      · rw [AList.lookup_insert_ne same, AList.lookup_insert_ne same]
  | some items =>
      simp only [Option.isNone_some, Bool.false_eq_true, if_false, held]
      split_ifs with same
      · subst same
        rw [AList.lookup_insert, held]
        rfl
      · rw [AList.lookup_insert_ne same]

theorem find_insert_item (tree : EmbeddedTree) (product variant stepping security path : String) (content : List Byte) :
    (tree.insertItem product variant stepping security path content).find =
      Insertion.insert tree.find
        (({ product, variant, stepping, security }, ItemPath.fromStr path), content) := by
  funext ⟨pvss, item⟩
  rw [find, insert_item_registry, Insertion.insert, Function.update_apply]
  generalize PVSS.mk product variant stepping security = own
  dsimp only
  by_cases same : pvss = own
  · subst same
    rw [if_pos rfl, Option.bind_some]
    by_cases path' : item = ItemPath.fromStr path
    · subst path'
      rw [AList.lookup_insert, if_pos rfl]
    · rw [AList.lookup_insert_ne path', if_neg fun both => path' (Prod.mk.inj both).2, find]
      cases tree.registry.lookup pvss <;> rfl
  · rw [if_neg same, if_neg fun both => same (Prod.mk.inj both).1, find]

theorem search_nodup {hits : List PVSS} (searched : tree.search item = .ok hits) : hits.Nodup := by
  cases searched
  exact tree.registry.keys_nodup.filter _

theorem mem_search_iff {hits : List PVSS} (searched : tree.search item = .ok hits) :
    pvss ∈ hits ↔ (tree.find (pvss, item)).isSome := by
  cases searched
  rw [List.mem_filter, find, ← AList.mem_keys, ← AList.lookup_isSome]
  constructor
  · exact And.right
  · exact fun held => ⟨Option.isSome_of_isSome_bind held, held⟩

end EmbeddedTree

/-! ## What the build script visits -/

namespace Build

variable {root entry : Entry (List Byte)} {content : List Byte}

theorem mem_visit_entries_iff {entries : List (String × Entry (List Byte))} {names : List String} :
    (names, content) ∈ visitEntries entries ↔
      ∃ name held rest, (name, held) ∈ entries ∧ names = name :: rest ∧ (rest, content) ∈ visitDirs held := by
  induction entries with
  | nil => simp [visitEntries]
  | cons first others ih =>
      obtain ⟨name, held⟩ := first
      rw [visitEntries, List.mem_append, ih]
      constructor
      · rintro (here | ⟨other, otherHeld, rest, member, split, below⟩)
        · obtain ⟨⟨rest, found⟩, below, same⟩ := List.mem_map.mp here
          cases same
          exact ⟨name, held, rest, List.mem_cons_self, rfl, below⟩
        · exact ⟨other, otherHeld, rest, List.mem_cons_of_mem _ member, split, below⟩
      · rintro ⟨other, otherHeld, rest, member, rfl, below⟩
        rcases List.mem_cons.mp member with same | later
        · cases same
          exact .inl (List.mem_map.mpr ⟨(rest, content), below, rfl⟩)
        · exact .inr ⟨other, otherHeld, rest, later, rfl, below⟩

/-- The files that are visited are those that names lead to. -/
theorem mem_visit_dirs_iff (sound : entry.Sound) {names : List String} :
    (names, content) ∈ visitDirs entry ↔ entry.walk names = some (.file content) := by
  induction names generalizing entry with
  | nil =>
      cases entry with
      | file own => simp [visitDirs, Entry.walk, eq_comm]
      | dir entries =>
          rw [visitDirs, mem_visit_entries_iff]
          constructor
          · rintro ⟨_, _, _, _, impossible, _⟩
            cases impossible
          · intro impossible
            cases impossible
  | cons name rest ih =>
      cases entry with
      | file own =>
          constructor
          · intro impossible
            simp [visitDirs] at impossible
          · intro impossible
            cases impossible
      | dir entries =>
          rw [visitDirs, mem_visit_entries_iff]
          constructor
          · rintro ⟨_, held, _, member, split, below⟩
            cases split
            have inside : (name, held) ∈ (Entry.dir entries).entries := member
            rw [Entry.walk, sound.get_eq_some_iff.mpr inside, Option.bind_some, ← ih (sound.of_mem inside)]
            exact below
          · intro walked
            obtain ⟨held, found, below⟩ := Option.bind_eq_some_iff.mp walked
            have member := sound.get_eq_some_iff.mp found
            exact ⟨name, held, rest, member, rfl, (ih (sound.of_mem member)).mpr below⟩

theorem visit_eq_some {body : String → Entry (List Byte) → Option (List VisitedItem)} {items : List VisitedItem}
    (visited : visit entry body = some items) :
    entry.isDir ∧ ∃ visits : String × Entry (List Byte) → List VisitedItem,
      (∀ below ∈ entry.entries, body below.1 below.2 = some (visits below)) ∧ items = entry.entries.flatMap visits := by
  cases entry with
  | file content => cases visited
  | dir entries =>
      refine ⟨rfl, fun below => (body below.1 below.2).getD [], ?_⟩
      obtain ⟨lists, mapped, rfl⟩ := Option.map_eq_some_iff.mp visited
      have each : ∀ (entries : List (String × Entry (List Byte))) (lists : List (List VisitedItem)),
          entries.mapM (fun entry => body entry.1 entry.2) = some lists →
          (∀ below ∈ entries, body below.1 below.2 = some ((body below.1 below.2).getD [])) ∧
            lists.flatten = entries.flatMap fun below => (body below.1 below.2).getD [] := by
        intro entries
        induction entries with
        | nil =>
            intro lists done
            cases done
            exact ⟨by simp, rfl⟩
        | cons first rest ih =>
            intro lists done
            rw [List.mapM_cons] at done
            obtain ⟨own, here, later⟩ := Option.bind_eq_some_iff.mp done
            obtain ⟨others, below, same⟩ := Option.bind_eq_some_iff.mp later
            cases same
            obtain ⟨all, flat⟩ := ih others below
            refine ⟨List.forall_mem_cons.mpr ⟨by rw [here]; rfl, all⟩, ?_⟩
            rw [List.flatten_cons, List.flatMap_cons, flat, here]
            rfl
      exact each entries lists mapped

/-- The items that are visited some levels down, for a loop that visits `items`
at every entry of the level. -/
theorem visit_descend {depth : Nat} {items : List String × Entry (List Byte) → List VisitedItem}
    {body : String → Entry (List Byte) → Option (List VisitedItem)} {visitedItems : List VisitedItem}
    (visited : visit entry body = some visitedItems)
    (each : ∀ name held inner, body name held = some inner →
      held.Leveled depth ∧
        inner = (held.descend depth).flatMap fun level => items (name :: level.1, level.2)) :
    entry.Leveled (depth + 1) ∧ visitedItems = (entry.descend (depth + 1)).flatMap items := by
  obtain ⟨directory, visits, bodies, rfl⟩ := visit_eq_some visited
  refine ⟨⟨directory, fun below member => (each below.1 below.2 _ (bodies below member)).1⟩, ?_⟩
  rw [Entry.descend, List.flatMap_assoc]
  refine List.flatMap_congr fun below member => ?_
  rw [(each below.1 below.2 _ (bodies below member)).2, List.flatMap_map]

/-- The items of a security level. -/
def itemsOf (level : List String × Entry (List Byte)) : List VisitedItem :=
  (visitPath (level.2.get "crashlog")).map fun below =>
    let pvss := PVSS.ofNames level.1
    { product := pvss.product, variant := pvss.variant, stepping := pvss.stepping, security := pvss.security,
      path := below.1, content := below.2 }

theorem visit_collateral_tree_eq_some {items : List VisitedItem} (visited : visitCollateralTree root = some items) :
    root.Leveled 4 ∧ items = (root.descend 4).flatMap itemsOf := by
  refine visit_descend visited fun product products inner visited => ?_
  refine visit_descend visited fun variant variants inner visited => ?_
  refine visit_descend visited fun stepping steppings inner visited => ?_
  refine visit_descend visited fun security securities inner visited => ?_
  cases visited
  exact ⟨trivial, (List.flatMap_singleton _ _).symm⟩

/-- The product is one of those that are embedded. -/
def Included (requestedProducts : List String) (product : String) : Prop :=
  requestedProducts = [] ∨ product ∈ requestedProducts

instance (requestedProducts : List String) (product : String) : Decidable (Included requestedProducts product) :=
  inferInstanceAs (Decidable (_ ∨ _))

/-- What an item adds to the registry. -/
def insertion (requestedProducts : List String) (item : VisitedItem) : Option ((PVSS × ItemPath) × List Byte) :=
  if Included requestedProducts item.product then
    item.content.map fun content =>
      (({ product := item.product, variant := item.variant, stepping := item.stepping, security := item.security },
        ItemPath.fromStr (String.intercalate "/" item.path)), content)
  else none

theorem find_embed_item {requestedProducts : List String} {tree after : EmbeddedTree} {item : VisitedItem}
    (embedded : embedItem requestedProducts tree item = some after) :
    after.find = Insertion.insertAll tree.find (insertion requestedProducts item).toList := by
  have excluded : (!requestedProducts.isEmpty && !requestedProducts.contains item.product) = true ↔
      ¬ Included requestedProducts item.product := by
    simp [Included, not_or]
  unfold embedItem at embedded
  unfold insertion
  by_cases included : Included requestedProducts item.product
  · rw [if_neg fun out => excluded.mp out included] at embedded
    obtain ⟨content, held, rfl⟩ := Option.map_eq_some_iff.mp embedded
    rw [if_pos included, held, EmbeddedTree.find_insert_item]
    rfl
  · rw [if_pos (excluded.mpr included)] at embedded
    cases embedded
    rw [if_neg included]
    rfl

theorem find_embed_items {requestedProducts : List String} {tree after : EmbeddedTree} {items : List VisitedItem}
    (embedded : items.foldlM (embedItem requestedProducts) tree = some after) :
    after.find = Insertion.insertAll tree.find (items.filterMap (insertion requestedProducts)) := by
  induction items generalizing tree with
  | nil =>
      cases embedded
      rfl
  | cons item rest ih =>
      rw [List.foldlM_cons] at embedded
      obtain ⟨between, first, others⟩ := Option.bind_eq_some_iff.mp embedded
      rw [ih others, find_embed_item first, List.filterMap_cons]
      cases insertion requestedProducts item <;> rfl

/-- The text of a path of names is read back. -/
theorem from_str_intercalate {names : List String} (nonempty : names ≠ [])
    (proper : ∀ name ∈ names, Proper name) :
    ItemPath.fromStr (String.intercalate "/" names) = { elements := names } := by
  have single : ∀ chars ∈ names.map String.toList, '/' ∉ chars := by
    rintro _ member
    obtain ⟨name, inside, rfl⟩ := List.mem_map.mp member
    exact (proper name inside).single
  have separator : "/".toList = ['/'] := rfl
  rw [ItemPath.fromStr, Text.split, String.toList_intercalate, separator,
    List.splitOn_intercalate '/' single (by simpa using nonempty), List.map_map]
  simp [Function.comp_def]

/-- The text of a file below `crashlog` names that file and no other. -/
theorem path_of_from_str {names elements : List String} (proper : ∀ name ∈ names, Proper name)
    (plain : ItemPath.Plain { elements }) (same : ItemPath.fromStr (String.intercalate "/" names) = { elements }) :
    names = elements := by
  by_cases nonempty : names = []
  · subst nonempty
    have empty : ItemPath.fromStr (String.intercalate "/" []) = { elements := [""] } := by decide
    rw [empty] at same
    cases same
    exact absurd rfl (plain.proper "" List.mem_cons_self).nonempty
  · rw [from_str_intercalate nonempty proper] at same
    exact ItemPath.mk.inj same

variable {requestedProducts : List String} {tree : EmbeddedTree} {pvss : PVSS} {item : ItemPath}

theorem embed_leveled (embedded : embedCollateralTree requestedProducts root = some tree) : root.Leveled 4 := by
  obtain ⟨items, visited, _⟩ := Option.bind_eq_some_iff.mp embedded
  exact (visit_collateral_tree_eq_some visited).1

/-- What the script inserts for a plain item is the file at its place. -/
theorem mem_insertions_iff (sound : root.Sound) (plainItem : item.Plain) :
    ((pvss, item), content) ∈ ((root.descend 4).flatMap itemsOf).filterMap (insertion requestedProducts) ↔
      Included requestedProducts pvss.product ∧
        root.walk (pvss.names ++ "crashlog" :: item.elements) = some (.file content) := by
  rw [List.mem_filterMap]
  constructor
  · rintro ⟨visited, member, inserted⟩
    obtain ⟨⟨names, level⟩, below, inside⟩ := List.mem_flatMap.mp member
    obtain ⟨deep, walked⟩ := (Entry.mem_descend_iff sound).mp below
    obtain ⟨⟨path, held⟩, reached, rfl⟩ := List.mem_map.mp inside
    unfold insertion at inserted
    split_ifs at inserted with included
    obtain ⟨own, rfl, same⟩ := Option.map_eq_some_iff.mp inserted
    cases same
    refine ⟨included, ?_⟩
    have sameNames : PVSS.names (PVSS.ofNames names) = names := PVSS.names_of_names deep
    change root.walk (PVSS.names (PVSS.ofNames names) ++ _) = _
    rw [sameNames, Entry.walk_append, walked, Option.bind_some, Entry.walk]
    dsimp only at reached
    cases directory : level.get "crashlog" with
    | none =>
        rw [directory] at reached
        simp [visitPath] at reached
    | some entry =>
        rw [directory] at reached
        obtain ⟨⟨file, content'⟩, visited, same⟩ := List.mem_map.mp reached
        cases same
        have entrySound := (sound.of_walk walked).of_walk ((Entry.walk_single level "crashlog").trans directory)
        have opened := (mem_visit_dirs_iff entrySound).mp visited
        have elements := path_of_from_str (entrySound.proper_of_walk opened) plainItem rfl
        rw [Option.bind_some]
        rw [elements] at opened
        exact opened
  · rintro ⟨included, walked⟩
    rw [Entry.walk_append] at walked
    obtain ⟨level, levelWalked, below⟩ := Option.bind_eq_some_iff.mp walked
    obtain ⟨entry, directory, opened⟩ := Option.bind_eq_some_iff.mp below
    have entrySound := (sound.of_walk levelWalked).of_walk ((Entry.walk_single level "crashlog").trans directory)
    have visited := (mem_visit_dirs_iff entrySound).mpr opened
    refine ⟨⟨pvss.product, pvss.variant, pvss.stepping, pvss.security, item.elements, some content⟩, ?_, ?_⟩
    · refine List.mem_flatMap.mpr ⟨(pvss.names, level), (Entry.mem_descend_iff sound).mpr ⟨rfl, levelWalked⟩, ?_⟩
      refine List.mem_map.mpr ⟨(item.elements, some content), ?_, rfl⟩
      dsimp only
      rw [directory]
      exact List.mem_map.mpr ⟨(item.elements, content), visited, rfl⟩
    · rw [insertion, if_pos included, from_str_intercalate plainItem.nonempty plainItem.proper]
      rfl

theorem find_embedded_iff (sound : root.Sound) (embedded : embedCollateralTree requestedProducts root = some tree)
    (plainItem : item.Plain) :
    tree.find (pvss, item) = some content ↔
      Included requestedProducts pvss.product ∧
        root.walk (pvss.names ++ "crashlog" :: item.elements) = some (.file content) := by
  obtain ⟨items, visited, inserted⟩ := Option.bind_eq_some_iff.mp embedded
  obtain ⟨_, rfl⟩ := visit_collateral_tree_eq_some visited
  rw [find_embed_items inserted, ← mem_insertions_iff sound plainItem]
  constructor
  · intro held
    exact (Insertion.mem_of_insert_all held).resolve_left (by simp [EmbeddedTree.find, EmbeddedTree.empty])
  · intro member
    obtain ⟨other, held⟩ := Insertion.insert_all_of_mem EmbeddedTree.empty.find member
    have otherMember := (Insertion.mem_of_insert_all held).resolve_left
      (by simp [EmbeddedTree.find, EmbeddedTree.empty])
    have left := ((mem_insertions_iff sound plainItem).mp member).2
    have right := ((mem_insertions_iff sound plainItem).mp otherMember).2
    rw [left] at right
    cases right
    exact held

end Build

/-! ## The embedded tree and the directories -/

namespace CollateralVolume

open Build

variable {volume : CollateralVolume} {requestedProducts : List String} {tree : EmbeddedTree}
  {pvss : PVSS} {item : ItemPath}

/-- The embedded tree has the files that the directories have, for the products
that were embedded. Everything else is an error of both. -/
theorem embedded_get (embedded : embedCollateralTree requestedProducts volume.collateral = some tree)
    (plain : pvss.Plain) (plainItem : item.Plain) :
    (tree.get pvss item).toOption =
      if Included requestedProducts pvss.product then
        (volume.tree.get volume.fileSystem.toFileSystem pvss item).toOption
      else none := by
  have held : ∀ content, tree.find (pvss, item) = some content ↔
      Included requestedProducts pvss.product ∧ volume.entry pvss item = some (.file content) := fun content =>
    find_embedded_iff volume.collateral_sound embedded plainItem
  rw [EmbeddedTree.get_to_option, get_eq plain plainItem]
  by_cases included : Included requestedProducts pvss.product
  · rw [if_pos included]
    apply Option.ext
    intro content
    rw [held]
    cases volume.entry pvss item with
    | none => simp [Except.toOption]
    | some entry => cases entry <;> simp [Except.toOption, included]
  · rw [if_neg included, Option.eq_none_iff_forall_ne_some]
    exact fun content found => included ((held content).mp found).1

/-- No directory has the name of the item. -/
def NoDirectory (volume : CollateralVolume) (item : ItemPath) : Prop :=
  ∀ pvss entries, volume.entry pvss item ≠ some (.dir entries)

/-- Both trees list the same `PVSS`, in some order. -/
theorem embedded_search (embedded : embedCollateralTree requestedProducts volume.collateral = some tree)
    (plainItem : item.Plain) (noDirectory : volume.NoDirectory item) :
    ∃ hits listed, tree.search item = .ok hits ∧ volume.tree.search volume.fileSystem item = .ok listed ∧
      hits.Perm (listed.filter fun pvss => decide (Included requestedProducts pvss.product)) := by
  refine ⟨_, _, rfl, search_eq (embed_leveled embedded) plainItem, ?_⟩
  rw [List.perm_ext_iff_of_nodup (EmbeddedTree.search_nodup rfl) (hits_nodup.filter _)]
  intro pvss
  rw [EmbeddedTree.mem_search_iff rfl, List.mem_filter, mem_hits_iff, decide_eq_true_iff, and_comm,
    Option.isSome_iff_exists]
  simp only [find_embedded_iff volume.collateral_sound embedded plainItem]
  rw [exists_and_left]
  refine and_congr_right fun _ => ?_
  change (∃ content, volume.entry pvss item = _) ↔ _
  cases held : volume.entry pvss item with
  | none => simp
  | some entry =>
      cases entry with
      | file content => simp
      | dir entries => exact absurd held (noDirectory pvss entries)

/-- The build script embeds the collateral tree as it is: the embedded tree and
the directories agree on every plain item and on where it is listed, as far as
the product was requested. -/
theorem embedded_tree_agrees (embedded : embedCollateralTree requestedProducts volume.collateral = some tree) :
    (∀ pvss item, pvss.Plain → item.Plain → (tree.get pvss item).toOption =
      if Included requestedProducts pvss.product then
        (volume.tree.get volume.fileSystem.toFileSystem pvss item).toOption
      else none) ∧
    ∀ item, item.Plain → volume.NoDirectory item →
      ∃ hits listed, tree.search item = .ok hits ∧ volume.tree.search volume.fileSystem item = .ok listed ∧
        hits.Perm (listed.filter fun pvss => decide (Included requestedProducts pvss.product)) :=
  ⟨fun _ _ plain plainItem => embedded_get embedded plain plainItem,
    fun _ plainItem noDirectory => embedded_search embedded plainItem noDirectory⟩

end CollateralVolume

/-! ## A tree with one product -/

theorem Entry.Sound.single {α : Type} {name : String} {entry : Entry α} (proper : Proper name)
    (below : entry.Sound) : (Entry.dir [(name, entry)]).Sound :=
  .dir (List.nodup_singleton _) (by simpa using proper) (by simpa using below)

/-- The product information of a product with one named die. -/
def oneProductInfo : List Byte :=
  CollateralManager.asciiBytes "\x7b\"product\":\"XYZ\",\"product_id\":\"0x7a\",\"die_id\":\x7b\"0\":\"io0\"\x7d\x7d"

def oneProductItems : Entry (List Byte) := .dir [
  ("target_info.json", .file oneProductInfo),
  ("decode-defs", .dir [("MCA", .dir [("io", .dir [("1", .dir [("layout.csv", .file (CollateralManager.asciiBytes "name;offset;size"))])])])])]

def oneProductCollateral : Entry (List Byte) :=
  .dir [("XYZ", .dir [("all", .dir [("all", .dir [("green", .dir [("crashlog", oneProductItems)])])])])]

theorem one_product_sound : (Entry.dir [("collateral", oneProductCollateral)]).Sound := by
  have items : oneProductItems.Sound := by
    refine .dir (by decide) (by decide) (List.forall_mem_cons.mpr ⟨.file _, List.forall_mem_singleton.mpr ?_⟩)
    exact .single (by decide) (.single (by decide) (.single (by decide) (.single (by decide) (.file _))))
  exact .single (by decide) (.single (by decide) (.single (by decide) (.single (by decide)
    (.single (by decide) (.single (by decide) items)))))

def oneProduct : CollateralVolume where
  top := .dir [("collateral", oneProductCollateral)]
  sound := one_product_sound
  isDir := rfl
  current := []
  tree := { root := "/collateral" }
  rooted := by decide
  place := ["collateral"]
  found := by decide
  collateral := oneProductCollateral
  walked := rfl

/-- The one product, embedded on request. -/
theorem one_product_agrees :
    ∃ tree, Build.embedCollateralTree ["XYZ"] oneProduct.collateral = some tree ∧
      (∀ pvss item, pvss.Plain → item.Plain → (tree.get pvss item).toOption =
        if Build.Included ["XYZ"] pvss.product then
          (oneProduct.tree.get oneProduct.fileSystem.toFileSystem pvss item).toOption
        else none) ∧
      ∀ item, item.Plain → oneProduct.NoDirectory item →
        ∃ hits listed, tree.search item = .ok hits ∧ oneProduct.tree.search oneProduct.fileSystem item = .ok listed ∧
          hits.Perm (listed.filter fun pvss => decide (Build.Included ["XYZ"] pvss.product)) := by
  obtain ⟨tree, embedded⟩ : ∃ tree, Build.embedCollateralTree ["XYZ"] oneProduct.collateral = some tree :=
    Option.isSome_iff_exists.mp (by decide)
  exact ⟨tree, embedded, CollateralVolume.embedded_tree_agrees embedded⟩

end Crashlog
