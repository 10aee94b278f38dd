import Crashlog.Collateral
import Crashlog.PathBuf

/-!
# Collateral in the file system

An item is looked up below the directory of its `PVSS`, and the path that was
found is compared with that directory. The directory itself is not compared
with the root of the tree: the tree stays inside its root for a `PVSS` exactly
when that directory does.
-/

namespace Crashlog

open Bytes

/-- The file system as far as it is read. -/
structure FileSystem where
  canonicalize : PathBuf → Option PathBuf
  read : PathBuf → Except String (List Byte)

/-- The canonical path of a file is its own canonical path. -/
def FileSystem.Canonical (fs : FileSystem) : Prop :=
  ∀ path place, fs.canonicalize path = some place → fs.canonicalize place = some place

namespace PVSS

/-- The elements that count in a path. -/
def elements (pvss : PVSS) : List String :=
  [pvss.product, pvss.variant, pvss.stepping, pvss.security].filter fun p => p != "." && p != ".."

def toPathBuf (pvss : PVSS) : PathBuf := PathBuf.collect pvss.elements

end PVSS

def ItemPath.toPathBuf (item : ItemPath) : PathBuf := PathBuf.collect item.elements

structure FileSystemTree where
  root : PathBuf

namespace FileSystemTree

/-- The directory of the items of a `PVSS`. -/
def relativeBase (tree : FileSystemTree) (pvss : PVSS) : PathBuf :=
  PathBuf.push (PathBuf.extend tree.root (PathBuf.components pvss.toPathBuf)) "crashlog"

def buildPath (fs : FileSystem) (tree : FileSystemTree) (pvss : PVSS) (item : ItemPath) : Option PathBuf := do
  let base ← fs.canonicalize (tree.relativeBase pvss)
  let path ← fs.canonicalize (PathBuf.extend base (PathBuf.components item.toPathBuf))
  if PathBuf.startsWith path base then some path else none

/-- The path that was built is the file that is opened. -/
def get (fs : FileSystem) (tree : FileSystemTree) (pvss : PVSS) (item : ItemPath) : Except Error (List Byte) :=
  match tree.buildPath fs pvss item with
  | none => .error (.missingCollateral pvss item)
  | some path =>
      match fs.read path with
      | .ok buf => .ok buf
      | .error message => .error (.ioError message)

/-- The path is below the canonical root. -/
def Below (fs : FileSystem) (tree : FileSystemTree) (path : PathBuf) : Prop :=
  ∃ root, fs.canonicalize tree.root = some root ∧ PathBuf.startsWith path root

/-- The result of a lookup is that of reading a file below the root, or the
item is missing, and no file elsewhere has a part in it. -/
structure StaysInside (fs : FileSystem) (tree : FileSystemTree) (pvss : PVSS) (item : ItemPath) : Prop where
  opened : tree.get fs pvss item = .error (.missingCollateral pvss item) ∨
    ∃ path, tree.Below fs path ∧ tree.get fs pvss item = (fs.read path).mapError .ioError
  blind : ∀ read, (∀ path, tree.Below fs path → read path = fs.read path) →
    tree.get { fs with read } pvss item = tree.get fs pvss item

/-- The directory of the `PVSS`, if there is one, is below the root. -/
def BaseInside (fs : FileSystem) (tree : FileSystemTree) (pvss : PVSS) : Prop :=
  ∀ base, fs.canonicalize (tree.relativeBase pvss) = some base → tree.Below fs base

variable {fs : FileSystem} {tree : FileSystemTree} {pvss : PVSS} {item : ItemPath}

theorem build_path_eq_some {path : PathBuf} :
    tree.buildPath fs pvss item = some path ↔
      ∃ base, fs.canonicalize (tree.relativeBase pvss) = some base ∧
        fs.canonicalize (PathBuf.extend base (PathBuf.components item.toPathBuf)) = some path ∧
          PathBuf.startsWith path base := by
  simp only [buildPath, Option.bind_eq_bind, Option.bind_eq_some_iff, Option.ite_none_right_eq_some,
    Option.some.injEq]
  constructor
  · rintro ⟨base, found, place, resolved, inside, rfl⟩
    exact ⟨base, found, resolved, inside⟩
  · rintro ⟨base, found, resolved, inside⟩
    exact ⟨base, found, path, resolved, inside, rfl⟩

/-- Which file is opened does not depend on what is in the files. -/
theorem build_path_read (read : PathBuf → Except String (List Byte)) :
    tree.buildPath { fs with read } pvss item = tree.buildPath fs pvss item := rfl

theorem get_missing (missing : tree.buildPath fs pvss item = none)
    (read : PathBuf → Except String (List Byte)) :
    tree.get { fs with read } pvss item = .error (.missingCollateral pvss item) := by
  rw [get, build_path_read, missing]

theorem get_opened {path : PathBuf} (built : tree.buildPath fs pvss item = some path)
    (read : PathBuf → Except String (List Byte)) :
    tree.get { fs with read } pvss item = (read path).mapError .ioError := by
  rw [get, build_path_read, built]
  cases content : read path <;> simp only [content] <;> rfl

/-- The empty item is the directory of the `PVSS` itself. -/
theorem build_path_empty (canonical : fs.Canonical) {base : PathBuf}
    (found : fs.canonicalize (tree.relativeBase pvss) = some base) :
    tree.buildPath fs pvss { elements := [] } = some base := by
  rw [build_path_eq_some]
  refine ⟨base, found, ?_, PathBuf.startsWith.refl base⟩
  exact canonical _ _ found

theorem BaseInside.stays_inside (inside : BaseInside fs tree pvss) (item : ItemPath) :
    StaysInside fs tree pvss item := by
  cases built : tree.buildPath fs pvss item with
  | none =>
      have missing := get_missing built
      exact ⟨.inl (missing fs.read), fun read _ => (missing read).trans (missing fs.read).symm⟩
  | some path =>
      have opened := get_opened built
      have below : tree.Below fs path := by
        obtain ⟨base, found, _, deeper⟩ := build_path_eq_some.mp built
        obtain ⟨root, resolved, above⟩ := inside base found
        exact ⟨root, resolved, deeper.trans above⟩
      refine ⟨.inr ⟨path, below, opened fs.read⟩, fun read same => ?_⟩
      exact (opened read).trans ((congrArg _ (same path below)).trans (opened fs.read).symm)

/-- A file that is opened outside the root shows in the result. -/
theorem StaysInside.below (inside : StaysInside fs tree pvss item) {path : PathBuf}
    (built : tree.buildPath fs pvss item = some path) : tree.Below fs path := by
  by_contra outside
  have shown (content : Except String (List Byte)) :
      content.mapError Error.ioError = (fs.read path).mapError Error.ioError := by
    have same := inside.blind (Function.update fs.read path content) (by
      intro other below
      refine Function.update_of_ne ?_ _ _
      rintro rfl
      exact outside below)
    rw [get_opened built] at same
    rw [Function.update_self] at same
    exact same.trans (get_opened built fs.read)
  have other := (shown (.ok [0])).trans (shown (.ok [1])).symm
  cases other

/-- The tree stays inside its root for a `PVSS` exactly when the directory of
the `PVSS` is there. -/
theorem stays_inside_iff (fs : FileSystem) (canonical : fs.Canonical) (tree : FileSystemTree) (pvss : PVSS) :
    (∀ item, StaysInside fs tree pvss item) ↔ BaseInside fs tree pvss := by
  constructor
  · intro inside base found
    exact (inside { elements := [] }).below (build_path_empty canonical found)
  · exact BaseInside.stays_inside

/-! ## Without links -/

/-- Without links, a path is resolved by following its components from the
current directory. -/
def LinkFree (fs : FileSystem) (current : List String) : Prop :=
  ∀ path place, fs.canonicalize path = some place →
    PathBuf.components place = "/" :: PathBuf.follow current path

/-- Where the strings of the `PVSS` lead from the root of the tree. -/
def pvssPlace (current : List String) (tree : FileSystemTree) (pvss : PVSS) : List String :=
  (pvss.elements ++ ["crashlog"]).foldl PathBuf.follow (PathBuf.follow current tree.root)

theorem follow_relative_base (current : List String) (tree : FileSystemTree) (pvss : PVSS) :
    PathBuf.follow current (tree.relativeBase pvss) = pvssPlace current tree pvss := by
  rw [relativeBase, PathBuf.follow_push, PathBuf.follow_extend_components, PVSS.toPathBuf, PathBuf.follow_collect,
    pvssPlace, List.foldl_append, List.foldl_cons, List.foldl_nil]

/-- Without links, it is the strings that decide. -/
theorem base_inside_iff {current : List String} (linkFree : LinkFree fs current) {root : PathBuf}
    (resolved : fs.canonicalize tree.root = some root) :
    BaseInside fs tree pvss ↔
      ∀ base, fs.canonicalize (tree.relativeBase pvss) = some base →
        PathBuf.follow current tree.root <+: pvssPlace current tree pvss := by
  have below : ∀ base, fs.canonicalize (tree.relativeBase pvss) = some base →
      (tree.Below fs base ↔ PathBuf.follow current tree.root <+: pvssPlace current tree pvss) := by
    intro base found
    rw [← follow_relative_base, Below]
    simp only [resolved, Option.some.injEq, exists_eq_left', PathBuf.startsWith]
    rw [linkFree _ _ resolved, linkFree _ _ found, List.cons_prefix_cons]
    exact and_iff_right rfl
  exact forall₂_congr below

/-- A name that is not the parent leads down or nowhere. -/
theorem prefix_follow {name : String} (single : '/' ∉ name.toList) (down : name ≠ "..") (place : List String) :
    place <+: PathBuf.follow place name := by
  have relative : name ≠ "/" := by
    rintro rfl
    exact single (by decide)
  rw [PathBuf.follow_name single, PathBuf.step, if_neg relative, if_neg down]
  split_ifs
  · exact List.prefix_rfl
  · exact List.prefix_rfl
  · exact List.prefix_append _ _

/-- Without links and separators, no `PVSS` leads out of the tree. -/
theorem names_stay_inside {current : List String} (linkFree : LinkFree fs current)
    {root : PathBuf} (resolved : fs.canonicalize tree.root = some root)
    (single : ∀ name ∈ pvss.elements, '/' ∉ name.toList) (item : ItemPath) : StaysInside fs tree pvss item := by
  refine ((base_inside_iff linkFree resolved).2 ?_).stays_inside item
  intro base _
  have down : ∀ (names : List String), (∀ name ∈ names, '/' ∉ name.toList ∧ name ≠ "..") →
      ∀ place, place <+: names.foldl PathBuf.follow place := by
    intro names
    induction names with
    | nil => exact fun _ place => List.prefix_rfl
    | cons name rest ih =>
        intro all place
        have first := all name List.mem_cons_self
        exact (prefix_follow first.1 first.2 place).trans
          (ih (fun other member => all other (List.mem_cons_of_mem _ member)) _)
  refine down _ ?_ _
  intro name member
  rcases List.mem_append.mp member with element | last
  · refine ⟨single name element, ?_⟩
    rintro rfl
    simp [PVSS.elements] at element
  · rw [List.mem_singleton.mp last]
    decide

/-! ## A directory outside the root -/

/-- The file system whose files have the given canonical paths. -/
def ofPaths (paths : List PathBuf) : FileSystem where
  canonicalize path := paths.find? fun place => PathBuf.components place = "/" :: PathBuf.follow [] path
  read path := if path ∈ paths then .ok [] else .error "No such file or directory"

theorem of_paths_link_free (paths : List PathBuf) : LinkFree (ofPaths paths) [] := by
  intro path place found
  simpa using List.find?_some found

theorem of_paths_canonical {paths : List PathBuf}
    (own : ∀ place ∈ paths, (ofPaths paths).canonicalize place = some place) : (ofPaths paths).Canonical :=
  fun _ place found => own place (List.mem_of_find?_eq_some found)

def collateralPaths : List PathBuf :=
  ["/collateral", "/collateral/XYZ/all/all/all/crashlog", "/collateral/XYZ/all/all/all/crashlog/layout.csv",
    "/secret/crashlog", "/secret/crashlog/key"]

def collateralTree : FileSystemTree := { root := "/collateral" }

theorem collateral_canonical : (ofPaths collateralPaths).Canonical :=
  of_paths_canonical (by decide)

theorem root_resolved : (ofPaths collateralPaths).canonicalize collateralTree.root = some "/collateral" := by
  decide

theorem product_base_inside : BaseInside (ofPaths collateralPaths) collateralTree { product := "XYZ" } := by
  refine (base_inside_iff (of_paths_link_free collateralPaths) root_resolved).2 ?_
  intro base _
  decide

/-- An item with an absolute element is not looked up elsewhere. -/
theorem product_stays_inside :
    StaysInside (ofPaths collateralPaths) collateralTree { product := "XYZ" } { elements := ["/secret/crashlog", "key"] } :=
  (stays_inside_iff _ collateral_canonical _ _).2 product_base_inside _

/-- An absolute product replaces the root. -/
theorem absolute_product_escapes : ¬ ∀ (fs : FileSystem) (_ : fs.Canonical) (tree : FileSystemTree) (pvss : PVSS)
    (item : ItemPath), StaysInside fs tree pvss item := by
  intro inside
  have escaped := (inside (ofPaths collateralPaths) collateral_canonical collateralTree
    { product := "/secret", variant := ".", stepping := ".", security := "." } { elements := ["key"] }).below
      (show _ = some "/secret/crashlog/key" by decide)
  obtain ⟨root, resolved, below⟩ := escaped
  rw [Option.some.inj (resolved.symm.trans root_resolved)] at below
  exact absurd below (by decide)

end FileSystemTree

end Crashlog
