import Crashlog.Collateral
import Crashlog.Insertion

/-!
# Product information

The collateral manager reads the product information of every `PVSS` that the
tree lists and keeps it under the product number found inside. The tree lists
them in no particular order, so the result is determined exactly when no two
of them describe one product differently, or when one cannot be read at all.
-/

namespace Crashlog

open Bytes

/-- What the JSON reader finds in a file. The die ids are a hash map with texts
for keys, given here by its entries in the order in which they are gone through. -/
structure TargetInfoFields where
  product : String
  productId : String
  variant : Option String := none
  dieId : List (String × String) := []
  deriving DecidableEq, Repr

/-- The JSON reader of the collateral manager. -/
class TargetInfoReader where
  fromSlice : List Byte → Option TargetInfoFields

structure SearchableTree extends CollateralTree where
  search : ItemPath → Except Error (List PVSS)

namespace TargetInfo

def deserializeDieId (entry : String × String) : Option (UInt8 × String) :=
  (Text.fromStrRadix 10 (2 ^ 8) entry.1).map fun key => (UInt8.ofNat key, entry.2)

def deserialize (fields : TargetInfoFields) : TargetInfo where
  product := fields.product
  productId := fields.productId
  variant := fields.variant.getD "all"
  dieId := Insertion.insertAll (fun _ => none) (fields.dieId.filterMap deserializeDieId)

def parseProductId (targetInfo : TargetInfo) : Option UInt32 :=
  (match Text.stripPrefix "0x" targetInfo.productId with
    | some digits => Text.fromStrRadix 16 (2 ^ 32) digits
    | none => Text.fromStrRadix 10 (2 ^ 32) targetInfo.productId).map UInt32.ofNat

def path : ItemPath := { elements := ["target_info.json"] }

/-- The order of the hash map does not show exactly when the keys that are one
number have one die name. -/
theorem die_order_irrelevant_iff (fields : TargetInfoFields) :
    (∀ dieId, dieId.Perm fields.dieId → deserialize { fields with dieId } = deserialize fields) ↔
      Insertion.Agree (fields.dieId.filterMap deserializeDieId) := by
  constructor
  · intro same key left right leftMember rightMember
    have last (name : String) (member : (key, name) ∈ fields.dieId.filterMap deserializeDieId) :
        (deserialize fields).dieId key = some name := by
      obtain ⟨entry, listed, read⟩ := List.mem_filterMap.mp member
      have perm : (fields.dieId.erase entry ++ [entry]).Perm fields.dieId :=
        (List.perm_append_singleton _ _).trans (List.perm_cons_erase listed).symm
      rw [← same _ perm, deserialize, List.filterMap_append, List.filterMap_cons, read]
      exact Insertion.insert_all_last
    exact Option.some.inj ((last left leftMember).symm.trans (last right rightMember))
  · intro agree dieId perm
    rw [deserialize, deserialize, Insertion.insert_all_perm agree (perm.filterMap _)]

end TargetInfo

namespace CollateralManager

variable [reader : TargetInfoReader]

/-- The loop over the listed `PVSS`. -/
def updateTargetInfoLoop (tree : CollateralTree) :
    List PVSS → Insertion.Table UInt32 TargetInfo → Except Error (Insertion.Table UInt32 TargetInfo)
  | [], targetInfo => .ok targetInfo
  | pvss :: rest, targetInfo =>
      match tree.get pvss TargetInfo.path with
      | .error error => .error error
      | .ok item =>
          match (reader.fromSlice item).map TargetInfo.deserialize with
          | none => updateTargetInfoLoop tree rest targetInfo
          | some info =>
              match info.parseProductId with
              | none => updateTargetInfoLoop tree rest targetInfo
              | some productId =>
                  updateTargetInfoLoop tree rest (Insertion.insert targetInfo (productId, info))

def updateTargetInfo (tree : SearchableTree) : Except Error (Insertion.Table UInt32 TargetInfo) := do
  let hits ← tree.search TargetInfo.path
  updateTargetInfoLoop tree.toCollateralTree hits fun _ => none

def new (tree : SearchableTree) : Except Error CollateralManager := do
  let targetInfo ← updateTargetInfo tree
  .ok { tree := tree.toCollateralTree, items := fun _ => none, targetInfo }

/-! ## What a listed item adds -/

/-- The product information of an item that can be read, under its number. -/
def described (tree : CollateralTree) (pvss : PVSS) : Option (UInt32 × TargetInfo) := do
  let item ← (tree.get pvss TargetInfo.path).toOption
  let fields ← reader.fromSlice item
  let productId ← (TargetInfo.deserialize fields).parseProductId
  some (productId, TargetInfo.deserialize fields)

/-- An item that is listed and cannot be read. -/
def Unreadable (tree : CollateralTree) (pvss : PVSS) : Prop :=
  ∃ error, tree.get pvss TargetInfo.path = .error error

variable {tree : CollateralTree} {hits other : List PVSS} {targetInfo : Insertion.Table UInt32 TargetInfo}

theorem loop_unreadable (unreadable : ∃ pvss ∈ hits, Unreadable tree pvss)
    (targetInfo : Insertion.Table UInt32 TargetInfo) :
    ∃ error, updateTargetInfoLoop tree hits targetInfo = .error error := by
  induction hits generalizing targetInfo with
  | nil =>
      obtain ⟨pvss, member, _⟩ := unreadable
      cases member
  | cons first rest ih =>
      rw [updateTargetInfoLoop]
      cases found : tree.get first TargetInfo.path with
      | error error => exact ⟨error, rfl⟩
      | ok item =>
          obtain ⟨pvss, member, error, failed⟩ := unreadable
          rcases List.mem_cons.mp member with rfl | later
          · rw [found] at failed
            cases failed
          · dsimp only
            split
            · exact ih ⟨pvss, later, error, failed⟩ _
            · split
              · exact ih ⟨pvss, later, error, failed⟩ _
              · exact ih ⟨pvss, later, error, failed⟩ _

/-- Where everything can be read, the loop inserts what the items describe. -/
theorem loop_readable (readable : ∀ pvss ∈ hits, ¬ Unreadable tree pvss) :
    updateTargetInfoLoop tree hits targetInfo =
      .ok (Insertion.insertAll targetInfo (hits.filterMap (described tree))) := by
  induction hits generalizing targetInfo with
  | nil => rfl
  | cons first rest ih =>
      have later : ∀ targetInfo, updateTargetInfoLoop tree rest targetInfo =
          .ok (Insertion.insertAll targetInfo (rest.filterMap (described tree))) := fun targetInfo =>
        ih fun pvss member => readable pvss (List.mem_cons_of_mem _ member)
      rw [updateTargetInfoLoop, List.filterMap_cons, described]
      cases found : tree.get first TargetInfo.path with
      | error error => exact absurd ⟨error, found⟩ (readable first List.mem_cons_self)
      | ok item =>
          cases parsed : reader.fromSlice item with
          | none => simp [Except.toOption, parsed, later]
          | some fields =>
              cases numbered : (TargetInfo.deserialize fields).parseProductId with
              | none => simp [Except.toOption, parsed, numbered, later]
              | some productId => simp [Except.toOption, parsed, numbered, later, Insertion.insertAll]

/-! ## The order of the list -/

/-- The tree with a list of hits in some order. -/
def listing (tree : CollateralTree) (hits : List PVSS) : SearchableTree :=
  { tree with search := fun _ => .ok hits }

/-- The product information of a new collateral manager. -/
def newTargetInfo (tree : CollateralTree) (hits : List PVSS) : Option (UInt32 → Option TargetInfo) :=
  (new (listing tree hits)).toOption.map CollateralManager.targetInfo

theorem new_target_info_eq :
    newTargetInfo tree hits = (updateTargetInfoLoop tree hits fun _ => none).toOption := by
  rw [newTargetInfo, new, updateTargetInfo, listing]
  change (Except.toOption (Except.bind (updateTargetInfoLoop tree hits fun _ => none) _)).map _ = _
  cases updateTargetInfoLoop tree hits fun _ => none <;> rfl

/-- Listed items that describe one product describe it alike. -/
def DescribedAlike (tree : CollateralTree) (hits : List PVSS) : Prop :=
  ∀ first ∈ hits, ∀ second ∈ hits, ∀ productId left right,
    described tree first = some (productId, left) → described tree second = some (productId, right) → left = right

theorem DescribedAlike.agree (alike : DescribedAlike tree hits) :
    Insertion.Agree (hits.filterMap (described tree)) := by
  intro productId left right leftMember rightMember
  obtain ⟨first, firstMember, firstDescribed⟩ := List.mem_filterMap.mp leftMember
  obtain ⟨second, secondMember, secondDescribed⟩ := List.mem_filterMap.mp rightMember
  exact alike first firstMember second secondMember productId left right firstDescribed secondDescribed

/-- The last listed item decides. -/
theorem last_listed {pvss : PVSS} {productId : UInt32} {info : TargetInfo}
    (readable : ∀ pvss ∈ hits, ¬ Unreadable tree pvss) (member : pvss ∈ hits)
    (found : described tree pvss = some (productId, info)) :
    ∃ other, other.Perm hits ∧ ∃ targetInfo, newTargetInfo tree other = some targetInfo ∧
      targetInfo productId = some info := by
  have perm : (hits.erase pvss ++ [pvss]).Perm hits :=
    (List.perm_append_singleton _ _).trans (List.perm_cons_erase member).symm
  refine ⟨_, perm, Insertion.insertAll (fun _ => none) ((hits.erase pvss ++ [pvss]).filterMap (described tree)),
    ?_, ?_⟩
  · rw [new_target_info_eq, loop_readable fun other listed => readable other (perm.mem_iff.mp listed)]
    rfl
  · rw [List.filterMap_append, List.filterMap_cons, found]
    exact Insertion.insert_all_last

/-- The product information does not depend on the order of the list exactly
when an item cannot be read or each product is described in one way. -/
theorem order_irrelevant_iff (tree : CollateralTree) (hits : List PVSS) :
    (∀ other, other.Perm hits → newTargetInfo tree other = newTargetInfo tree hits) ↔
      (∃ pvss ∈ hits, Unreadable tree pvss) ∨ DescribedAlike tree hits := by
  by_cases unreadable : ∃ pvss ∈ hits, Unreadable tree pvss
  · refine iff_of_true ?_ (.inl unreadable)
    have failed : ∀ other : List PVSS, other.Perm hits → newTargetInfo tree other = none := by
      intro other perm
      obtain ⟨pvss, member, error⟩ := unreadable
      obtain ⟨error, failed⟩ := loop_unreadable ⟨pvss, perm.mem_iff.mpr member, error⟩ fun _ => none
      rw [new_target_info_eq, failed]
      rfl
    intro other perm
    rw [failed other perm, failed hits (List.Perm.refl _)]
  · rw [or_iff_right unreadable]
    have readable : ∀ pvss ∈ hits, ¬ Unreadable tree pvss := fun pvss member error =>
      unreadable ⟨pvss, member, error⟩
    constructor
    · intro same first firstMember second secondMember productId left right firstFound secondFound
      obtain ⟨firstOrder, firstPerm, firstTable, firstBuilt, firstLast⟩ :=
        last_listed readable firstMember firstFound
      obtain ⟨secondOrder, secondPerm, secondTable, secondBuilt, secondLast⟩ :=
        last_listed readable secondMember secondFound
      have tables : firstTable = secondTable := by
        rw [same firstOrder firstPerm] at firstBuilt
        rw [same secondOrder secondPerm] at secondBuilt
        exact Option.some.inj (firstBuilt.symm.trans secondBuilt)
      rw [tables, secondLast] at firstLast
      exact (Option.some.inj firstLast).symm
    · intro alike other perm
      rw [new_target_info_eq, new_target_info_eq, loop_readable readable,
        loop_readable fun pvss member => readable pvss (perm.mem_iff.mp member),
        Insertion.insert_all_perm alike.agree (perm.filterMap _)]

omit reader

/-- The bytes of an ASCII text. -/
def asciiBytes (text : String) : List Byte := text.toList.map fun c => UInt8.ofNat c.toNat

/-- One product with product information for two security levels. -/
def twoLevels : CollateralTree where
  get pvss path :=
    if path ≠ TargetInfo.path ∨ pvss.product ≠ "XYZ" then .error (.missingCollateral pvss path)
    else if pvss.security = "green" then
      .ok (asciiBytes "\x7b\"product\":\"XYZ\",\"product_id\":\"0x7a\"\x7d")
    else .ok (asciiBytes "\x7b\"product\":\"XYZ\",\"product_id\":\"0x7a\",\"variant\":\"SP\"\x7d")

/-- The reader on the files of the example. -/
@[reducible] def twoLevelsReader : TargetInfoReader where
  fromSlice item :=
    if item = asciiBytes "\x7b\"product\":\"XYZ\",\"product_id\":\"0x7a\"\x7d" then
      some { product := "XYZ", productId := "0x7a" }
    else if item = asciiBytes "\x7b\"product\":\"XYZ\",\"product_id\":\"0x7a\",\"variant\":\"SP\"\x7d" then
      some { product := "XYZ", productId := "0x7a", variant := "SP" }
    else none

def twoLevelsListed : List PVSS :=
  [{ product := "XYZ", security := "green" }, { product := "XYZ", security := "red" }]

/-- The variant of the product depends on which level is listed last. -/
theorem two_levels_depend_on_order : ¬ ∀ (_ : TargetInfoReader) (tree : CollateralTree) (hits other : List PVSS),
    other.Perm hits → newTargetInfo tree other = newTargetInfo tree hits := by
  intro same
  have tables := same twoLevelsReader twoLevels twoLevelsListed twoLevelsListed.reverse (List.reverse_perm _)
  have variants := congrArg (Option.map fun table => (table 0x7a).map TargetInfo.variant) tables
  exact absurd variants (by decide)

end CollateralManager

end Crashlog
