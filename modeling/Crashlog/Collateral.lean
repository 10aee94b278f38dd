import Crashlog.Header
import Crashlog.Memo
import Crashlog.Text

/-!
# Product-specific collateral

The collateral manager looks items up in a collateral tree and keeps what it
found. A lookup with a full `PVSS` reads one item of the tree. A lookup that
ignores the security level tries the levels in turn, but its result is kept
under the index it was asked with, and that index still has a security level:
the two lookups share cache entries that mean different things. The cache is
transparent for a list of calls exactly when no call pair trips over that.
-/

namespace Crashlog

open Bytes

def ItemPath.fromStr (path : String) : ItemPath := { elements := Text.split '/' path }

/-- Direct access to the product-specific collateral files. -/
structure CollateralTree where
  get : PVSS → ItemPath → Except Error (List Byte)

structure ItemIndex where
  pvss : PVSS
  path : ItemPath
  deriving DecidableEq, Repr

structure TargetInfo where
  product : String
  productId : String
  variant : String
  dieId : UInt8 → Option String

structure CollateralManager where
  tree : CollateralTree
  items : Memo.Table ItemIndex (List Byte)
  targetInfo : UInt32 → Option TargetInfo

/-! ## Product of a header -/

namespace Header

def product (header : Header) (cm : CollateralManager) : Except Error String :=
  okOr ((cm.targetInfo header.productId).map TargetInfo.product)
    (.invalidProductId header.productId)

def variant (header : Header) (cm : CollateralManager) : Option String :=
  (cm.targetInfo header.productId).map TargetInfo.variant

def getDieName (header : Header) (dieId : UInt8) (cm : CollateralManager) : Option String := do
  let targetInfo ← cm.targetInfo header.productId
  targetInfo.dieId dieId

/-- Product zero is the generic product. -/
def pvss (header : Header) (cm : CollateralManager) : Except Error PVSS := do
  let product ← match header.product cm with
    | .error (.invalidProductId 0) => .ok "all"
    | result => result
  let variant := (header.variant cm).getD "all"
  .ok { product, variant }

end Header

/-! ## Lookups -/

namespace CollateralManager

def insert (cm : CollateralManager) (index : ItemIndex) (item : List Byte) : CollateralManager :=
  { cm with items := Function.update cm.items index (some item) }

def getItemWithPvss (cm : CollateralManager) (pvss : PVSS) (path : ItemPath) :
    Except Error (List Byte) × CollateralManager :=
  let index : ItemIndex := { pvss, path }
  if (cm.items index).isSome then (okOr (cm.items index) .internalError, cm)
  else
    match cm.tree.get index.pvss index.path with
    | .error error => (.error error, cm)
    | .ok item =>
        let cm := cm.insert index item
        (okOr (cm.items index) .internalError, cm)

def securityLevels : List String := ["red", "white", "green", "all"]

/-- The loop over the security levels. Every failure leads to the next level;
the source tells them apart in its log only. -/
def fetchLevels (cm : CollateralManager) (index : ItemIndex) :
    List String → Except Error Unit × CollateralManager
  | [] => (.error (.missingCollateral index.pvss index.path), cm)
  | security :: rest =>
      match cm.tree.get { index.pvss with security } index.path with
      | .ok item => (.ok (), cm.insert index item)
      | .error _ => cm.fetchLevels index rest

def fetchItem (cm : CollateralManager) (index : ItemIndex) : Except Error Unit × CollateralManager :=
  cm.fetchLevels index securityLevels

def getItemWithPvs (cm : CollateralManager) (pvss : PVSS) (path : ItemPath) :
    Except Error (List Byte) × CollateralManager :=
  let index : ItemIndex := { pvss, path }
  if (cm.items index).isSome then (okOr (cm.items index) .internalError, cm)
  else
    match cm.fetchItem index with
    | (.error error, cm) => (.error error, cm)
    | (.ok (), cm) => (okOr (cm.items index) .internalError, cm)

def getItemWithHeader (cm : CollateralManager) (header : Header) (path : ItemPath) :
    Except Error (List Byte) × CollateralManager :=
  match header.pvss cm with
  | .error error => (.error error, cm)
  | .ok pvss => cm.getItemWithPvs pvss path

inductive Call where
  | pvss (pvss : PVSS) (path : ItemPath)
  | pvs (pvss : PVSS) (path : ItemPath)
  | header (header : Header) (path : ItemPath)
  deriving DecidableEq, Repr

def call (cm : CollateralManager) : Call → Except Error (List Byte) × CollateralManager
  | .pvss pvss path => cm.getItemWithPvss pvss path
  | .pvs pvss path => cm.getItemWithPvs pvss path
  | .header header path => cm.getItemWithHeader header path

/-- The answers to calls made one after the other. -/
def run (cm : CollateralManager) : List Call → List (Except Error (List Byte))
  | [] => []
  | first :: rest => (cm.call first).1 :: (cm.call first).2.run rest

end CollateralManager

/-! ## What the lookups are for -/

namespace CollateralTree

/-- The item of the first security level that has one: red, white, green, all. -/
def highest (tree : CollateralTree) (pvss : PVSS) (path : ItemPath) : Except Error (List Byte) :=
  okOr (["red", "white", "green", "all"].findSome? fun security =>
      (tree.get { pvss with security } path).toOption)
    (.missingCollateral pvss path)

/-- The levels that are fetched are these, in this order. -/
theorem highest_eq (tree : CollateralTree) (pvss : PVSS) (path : ItemPath) :
    tree.highest pvss path = okOr (CollateralManager.securityLevels.findSome? fun security =>
      (tree.get { pvss with security } path).toOption) (.missingCollateral pvss path) := rfl

end CollateralTree

/-- The two meanings of an index. -/
inductive Meaning where
  | exact
  | highest
  deriving DecidableEq, Repr

/-- What a call asks the tree for. -/
structure Lookup where
  meaning : Meaning
  index : ItemIndex
  deriving DecidableEq, Repr

namespace Lookup

def answer (tree : CollateralTree) (lookup : Lookup) : Except Error (List Byte) :=
  match lookup.meaning with
  | .exact => tree.get lookup.index.pvss lookup.index.path
  | .highest => tree.highest lookup.index.pvss lookup.index.path

/-- Two lookups clash where they mean different things by one index, the
earlier one finds an item, and the tree does not hold the item of the highest
security level at the index itself. -/
structure Clash (tree : CollateralTree) (earlier later : Lookup) : Prop where
  sameIndex : earlier.index = later.index
  otherMeaning : earlier.meaning ≠ later.meaning
  found : (earlier.answer tree).toOption.isSome
  differ : tree.get later.index.pvss later.index.path ≠ tree.highest later.index.pvss later.index.path

end Lookup

namespace CollateralManager

/-- A header call is a lookup once the product of the header is known. -/
def lookupOf (cm : CollateralManager) : Call → Except Error Lookup
  | .pvss pvss path => .ok { meaning := .exact, index := { pvss, path } }
  | .pvs pvss path => .ok { meaning := .highest, index := { pvss, path } }
  | .header header path => (header.pvss cm).map fun pvss => { meaning := .highest, index := { pvss, path } }

/-- The answer to a call that no cache has touched. -/
def answer (cm : CollateralManager) (call : Call) : Except Error (List Byte) := do
  let lookup ← cm.lookupOf call
  lookup.answer cm.tree

/-- Two calls whose lookups do not clash. -/
def Compatible (cm : CollateralManager) (earlier later : Call) : Prop :=
  ∀ first second, cm.lookupOf earlier = .ok first → cm.lookupOf later = .ok second →
    ¬ Lookup.Clash cm.tree first second

/-- The manager as a cache: the key of a call is the index of its lookup. -/
def memo (cm : CollateralManager) : Memo Call ItemIndex (List Byte) Error where
  key call := (cm.lookupOf call).toOption.map Lookup.index
  fetch := cm.answer

variable {cm : CollateralManager}

/-! ## The manager is a cache -/

/-- The first level with an item decides what is stored. -/
theorem fetch_levels_eq (index : ItemIndex) (levels : List String) :
    cm.fetchLevels index levels =
      (levels.findSome? fun security =>
          (cm.tree.get { index.pvss with security } index.path).toOption).elim
        (.error (.missingCollateral index.pvss index.path), cm) fun item => (.ok (), cm.insert index item) := by
  induction levels with
  | nil => rfl
  | cons security rest ih =>
      rw [fetchLevels, List.findSome?_cons]
      cases stored : cm.tree.get { index.pvss with security } index.path with
      | ok item => rfl
      | error error => exact ih

theorem get_after_insert (index : ItemIndex) (item : List Byte) :
    (cm.insert index item).items index = some item := Function.update_self _ _ _

theorem get_item_with_pvss_eq_ask (pvss : PVSS) (path : ItemPath) :
    cm.getItemWithPvss pvss path =
      ((cm.memo.ask cm.items (.pvss pvss path)).1,
        { cm with items := (cm.memo.ask cm.items (.pvss pvss path)).2 }) := by
  have keyed : cm.memo.key (.pvss pvss path) = some { pvss, path } := rfl
  cases stored : cm.items { pvss, path } with
  | some item => simp [getItemWithPvss, stored, Memo.ask_stored keyed stored, okOr]
  | none =>
      cases fetched : cm.tree.get pvss path with
      | error error =>
          have answer : cm.memo.fetch (.pvss pvss path) = .error error := fetched
          simp [getItemWithPvss, stored, fetched, Memo.ask_failed keyed stored answer]
      | ok item =>
          have answer : cm.memo.fetch (.pvss pvss path) = .ok item := fetched
          simp only [getItemWithPvss, stored, fetched, Memo.ask_fetched keyed stored answer,
            get_after_insert]
          rfl

/-- A call that ignores the security level, however its `PVSS` was found. -/
theorem get_item_with_pvs_eq_ask {call : Call} {pvss : PVSS} {path : ItemPath}
    (asked : cm.lookupOf call = .ok { meaning := .highest, index := { pvss, path } }) :
    cm.getItemWithPvs pvss path =
      ((cm.memo.ask cm.items call).1, { cm with items := (cm.memo.ask cm.items call).2 }) := by
  have keyed : cm.memo.key call = some { pvss, path } := by
    simp only [memo, asked]
    rfl
  have fetch : cm.memo.fetch call = cm.tree.highest pvss path := by
    simp only [memo, answer, asked]
    rfl
  cases stored : cm.items { pvss, path } with
  | some item => simp [getItemWithPvs, stored, Memo.ask_stored keyed stored, okOr]
  | none =>
      cases found : securityLevels.findSome? fun security =>
          (cm.tree.get { pvss with security } path).toOption with
      | none =>
          have answer : cm.memo.fetch call = .error (.missingCollateral pvss path) := by
            rw [fetch, CollateralTree.highest_eq, found]
            rfl
          simp [getItemWithPvs, stored, fetchItem, fetch_levels_eq, found,
            Memo.ask_failed keyed stored answer]
      | some item =>
          have answer : cm.memo.fetch call = .ok item := by
            rw [fetch, CollateralTree.highest_eq, found]
            rfl
          simp only [getItemWithPvs, stored, fetchItem, fetch_levels_eq, found, Option.elim_some,
            get_after_insert, Memo.ask_fetched keyed stored answer]
          rfl

theorem call_eq_ask (call : Call) :
    cm.call call =
      ((cm.memo.ask cm.items call).1, { cm with items := (cm.memo.ask cm.items call).2 }) := by
  cases call with
  | pvss pvss path => exact get_item_with_pvss_eq_ask pvss path
  | pvs pvss path => exact get_item_with_pvs_eq_ask rfl
  | header header path =>
      simp only [CollateralManager.call, getItemWithHeader]
      cases known : header.pvss cm with
      | ok pvss =>
          apply get_item_with_pvs_eq_ask
          simp only [lookupOf, known]
          rfl
      | error error =>
          have unasked : cm.lookupOf (.header header path) = .error error := by
            simp only [lookupOf, known]
            rfl
          have unkeyed : cm.memo.key (.header header path) = none := by
            simp only [memo, unasked]
            rfl
          have failed : cm.memo.fetch (.header header path) = .error error := by
            simp only [memo, answer, unasked]
            rfl
          rw [Memo.ask_unkeyed unkeyed, failed]

theorem run_eq_ask_all (calls : List Call) : cm.run calls = cm.memo.askAll cm.items calls := by
  induction calls generalizing cm with
  | nil => rfl
  | cons first rest ih =>
      have sameMemo (items : Memo.Table ItemIndex (List Byte)) : { cm with items }.memo = cm.memo := rfl
      simp only [run, Memo.askAll, call_eq_ask, ih, sameMemo]

/-! ## When two calls trip over each other -/

theorem answer_eq_ok_iff {call : Call} {item : List Byte} :
    cm.answer call = .ok item ↔ ∃ lookup, cm.lookupOf call = .ok lookup ∧ lookup.answer cm.tree = .ok item :=
  except_bind_eq_ok

theorem key_eq_some_iff {call : Call} {index : ItemIndex} :
    cm.memo.key call = some index ↔ ∃ lookup, cm.lookupOf call = .ok lookup ∧ lookup.index = index := by
  cases asked : cm.lookupOf call <;> simp [memo, asked, Except.toOption]

end CollateralManager

namespace Lookup

variable {tree : CollateralTree} {earlier later : Lookup}

/-- A success is repeated by the later lookup of the same index unless the two clash. -/
theorem not_clash_iff (sameIndex : earlier.index = later.index) :
    ¬ Clash tree earlier later ↔
      ∀ item, earlier.answer tree = .ok item → later.answer tree = .ok item := by
  by_cases sameMeaning : earlier.meaning = later.meaning
  · have same : earlier = later := by
      cases earlier
      cases later
      simp_all
    subst same
    exact ⟨fun _ _ found => found, fun _ clash => clash.otherMeaning rfl⟩
  · have differ_iff : tree.get later.index.pvss later.index.path =
        tree.highest later.index.pvss later.index.path ↔ earlier.answer tree = later.answer tree := by
      unfold answer
      rw [sameIndex]
      cases first : earlier.meaning <;> cases second : later.meaning <;> simp_all [eq_comm]
    cases found : earlier.answer tree with
    | error error =>
        constructor
        · intro _ item impossible
          cases impossible
        · intro _ clash
          have impossible := clash.found
          rw [found] at impossible
          cases impossible
    | ok item =>
        constructor
        · intro apart other same
          cases same
          by_contra differ
          refine apart ⟨sameIndex, sameMeaning, by rw [found]; rfl, fun agree => differ ?_⟩
          rw [← found, differ_iff.mp agree]
        · intro repeated clash
          apply clash.differ
          rw [differ_iff, found, repeated item rfl]

end Lookup

namespace CollateralManager

variable {cm : CollateralManager}

theorem repeats_iff_compatible {earlier later : Call} :
    cm.memo.Repeats earlier later ↔ cm.Compatible earlier later := by
  constructor
  · intro repeats first second firstAsked secondAsked clash
    apply (Lookup.not_clash_iff clash.sameIndex).mpr _ clash
    intro item found
    have answered := repeats second.index item
      (key_eq_some_iff.mpr ⟨first, firstAsked, clash.sameIndex⟩)
      (key_eq_some_iff.mpr ⟨second, secondAsked, rfl⟩)
      (answer_eq_ok_iff.mpr ⟨first, firstAsked, found⟩)
    obtain ⟨lookup, asked, answer⟩ := answer_eq_ok_iff.mp answered
    rw [secondAsked] at asked
    cases asked
    exact answer
  · intro compatible index item firstKey secondKey answered
    obtain ⟨first, firstAsked, firstIndex⟩ := key_eq_some_iff.mp firstKey
    obtain ⟨second, secondAsked, secondIndex⟩ := key_eq_some_iff.mp secondKey
    obtain ⟨lookup, asked, found⟩ := answer_eq_ok_iff.mp answered
    rw [firstAsked] at asked
    cases asked
    have sameIndex : first.index = second.index := firstIndex.trans secondIndex.symm
    have repeated := (Lookup.not_clash_iff sameIndex).mp
      (compatible first second firstAsked secondAsked) item found
    exact answer_eq_ok_iff.mpr ⟨second, secondAsked, repeated⟩

/-- From an empty cache every call of a list gets the answer of the tree
exactly when no call clashes with a later one. -/
theorem cache_transparent_iff (tree : CollateralTree) (targetInfo : UInt32 → Option TargetInfo)
    (calls : List Call) :
    let cm : CollateralManager := { tree, items := fun _ => none, targetInfo }
    cm.run calls = calls.map cm.answer ↔ calls.Pairwise cm.Compatible := by
  intro cm
  rw [run_eq_ask_all]
  exact Memo.ask_all_empty_iff.trans
    (List.Pairwise.iff (fun _ _ => repeats_iff_compatible))

/-- A tree with one item of the security level `green`. -/
def greenTree : CollateralTree where
  get pvss path :=
    if pvss = { product := "XYZ", security := "green" } ∧ path = ItemPath.fromStr "target_info.json" then
      .ok [0x7b, 0x7d]
    else .error (.missingCollateral pvss path)

/-- The item that the second call gets is not in the tree. -/
theorem second_call_answered_from_cache :
    let cm : CollateralManager := { tree := greenTree, items := fun _ => none, targetInfo := fun _ => none }
    let pvss : PVSS := { product := "XYZ" }
    let path := ItemPath.fromStr "target_info.json"
    let calls : List Call := [.pvs pvss path, .pvss pvss path]
    cm.run calls = [.ok [0x7b, 0x7d], .ok [0x7b, 0x7d]] ∧
      calls.map cm.answer = [.ok [0x7b, 0x7d], .error (.missingCollateral pvss path)] ∧
      cm.run calls ≠ calls.map cm.answer := by
  decide

end CollateralManager

end Crashlog
