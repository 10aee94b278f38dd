import Mathlib.Data.String.Basic
import Mathlib.Algebra.BigOperators.Group.List.Basic
import Mathlib.Data.List.Perm.Subperm
import Mathlib.Order.Basic

/-!
# Ordered maps as association lists

A map is a list of entries in strictly increasing key order. The list type is
written out, so that a recursive structure can hold a map of itself; `Sorted`
is the invariant. What `insert` does to `lookup` needs no order at all.
-/

namespace Crashlog.OrderedMap

variable {κ ν : Type*} [LinearOrder κ]

def lookup : List (κ × ν) → κ → Option ν
  | [], _ => none
  | (stored, value) :: rest, key => if stored = key then some value else lookup rest key

/-- An entry with the same key is replaced. -/
def insert (key : κ) (value : ν) : List (κ × ν) → List (κ × ν)
  | [] => [(key, value)]
  | (stored, old) :: rest =>
      if key < stored then (key, value) :: (stored, old) :: rest
      else if key = stored then (key, value) :: rest
      else (stored, old) :: insert key value rest

def Sorted (entries : List (κ × ν)) : Prop := (entries.map Prod.fst).Pairwise (· < ·)

@[simp] theorem lookup_nil (key : κ) : lookup ([] : List (κ × ν)) key = none := rfl

theorem lookup_insert (entries : List (κ × ν)) (key other : κ) (value : ν) :
    lookup (insert key value entries) other =
      if key = other then some value else lookup entries other := by
  induction entries with
  | nil => rfl
  | cons entry rest ih =>
      obtain ⟨stored, old⟩ := entry
      by_cases before : key < stored
      · simp only [insert, before, if_true, lookup]
      · by_cases same : key = stored
        · subst same
          simp only [insert, lt_irrefl, if_false, if_true, lookup]
          split_ifs <;> rfl
        · simp only [insert, before, same, if_false, lookup, ih]
          by_cases here : stored = other
          · subst here
            simp only [if_true, same, if_false]
          · simp only [here, if_false]

@[simp] theorem lookup_insert_self (entries : List (κ × ν)) (key : κ) (value : ν) :
    lookup (insert key value entries) key = some value := by
  rw [lookup_insert, if_pos rfl]

theorem insert_insert (entries : List (κ × ν)) (key : κ) (old new : ν) :
    insert key new (insert key old entries) = insert key new entries := by
  induction entries with
  | nil => simp [insert]
  | cons entry rest ih =>
      obtain ⟨stored, value⟩ := entry
      by_cases before : key < stored
      · simp [insert, before]
      · by_cases same : key = stored
        · simp [insert, same]
        · simp [insert, before, same, ih]

theorem mem_insert {entries : List (κ × ν)} {key : κ} {value : ν} {entry : κ × ν}
    (member : entry ∈ insert key value entries) : entry = (key, value) ∨ entry ∈ entries := by
  induction entries with
  | nil => simpa [insert] using member
  | cons head rest ih =>
      obtain ⟨stored, old⟩ := head
      unfold insert at member
      split_ifs at member with before same
      · simpa using member
      · rcases List.mem_cons.mp member with here | later
        · exact .inl here
        · exact .inr (by simp [later])
      · rcases List.mem_cons.mp member with here | later
        · exact .inr (by simp [here])
        · rcases ih later with here | old
          · exact .inl here
          · exact .inr (by simp [old])

theorem mem_of_lookup {entries : List (κ × ν)} {key : κ} {value : ν}
    (found : lookup entries key = some value) : (key, value) ∈ entries := by
  induction entries with
  | nil => cases found
  | cons entry rest ih =>
      obtain ⟨stored, old⟩ := entry
      unfold lookup at found
      split_ifs at found with same
      · cases found
        simp [same]
      · exact List.mem_cons_of_mem _ (ih found)

theorem lookup_isSome_iff {entries : List (κ × ν)} {key : κ} :
    (lookup entries key).isSome ↔ key ∈ entries.map Prod.fst := by
  induction entries with
  | nil => simp
  | cons entry rest ih =>
      obtain ⟨stored, old⟩ := entry
      unfold lookup
      split_ifs with same
      · simp [same]
      · simp [ih, Ne.symm same]

theorem sorted_nil : Sorted ([] : List (κ × ν)) := List.Pairwise.nil

theorem sorted_insert {entries : List (κ × ν)} (sorted : Sorted entries) (key : κ) (value : ν) :
    Sorted (insert key value entries) := by
  induction entries with
  | nil => simp [insert, Sorted]
  | cons entry rest ih =>
      obtain ⟨stored, old⟩ := entry
      obtain ⟨least, ordered⟩ := List.pairwise_cons.mp sorted
      unfold insert
      split_ifs with before same
      · refine List.pairwise_cons.mpr ⟨?_, sorted⟩
        intro other member
        rcases List.mem_cons.mp member with rfl | later
        · exact before
        · exact before.trans (least other later)
      · subst same
        exact List.pairwise_cons.mpr ⟨least, ordered⟩
      · refine List.pairwise_cons.mpr ⟨?_, ih ordered⟩
        intro other member
        obtain ⟨inserted, insertedMember, rfl⟩ := List.mem_map.mp member
        rcases mem_insert insertedMember with rfl | present
        · exact lt_of_le_of_ne (not_lt.mp before) (Ne.symm same)
        · exact least _ (List.mem_map_of_mem present)

/-- In a sorted map every entry is the one found under its key. -/
theorem lookup_of_mem {entries : List (κ × ν)} (sorted : Sorted entries) {key : κ} {value : ν}
    (member : (key, value) ∈ entries) : lookup entries key = some value := by
  induction entries with
  | nil => cases member
  | cons entry rest ih =>
      obtain ⟨stored, old⟩ := entry
      obtain ⟨least, ordered⟩ := List.pairwise_cons.mp sorted
      rcases List.mem_cons.mp member with here | later
      · cases here
        simp [lookup]
      · have below := least key (List.mem_map_of_mem later)
        simp only [lookup, ne_of_lt below, if_false, ih ordered later]

/-- An insertion exchanges the value that was stored for the new one. -/
theorem sum_insert {M : Type*} [AddCommMonoid M] {entries : List (κ × ν)} (sorted : Sorted entries)
    (key : κ) (value : ν) (weight : ν → M) :
    ((insert key value entries).map fun entry => weight entry.2).sum +
        (lookup entries key).elim 0 weight =
      (entries.map fun entry => weight entry.2).sum + weight value := by
  induction entries with
  | nil => simp [insert]
  | cons entry rest ih =>
      obtain ⟨stored, old⟩ := entry
      obtain ⟨least, ordered⟩ := List.pairwise_cons.mp sorted
      by_cases before : key < stored
      · -- A smaller key is in none of the entries behind.
        have absent : lookup ((stored, old) :: rest) key = none := by
          rw [← Option.not_isSome_iff_eq_none, lookup_isSome_iff]
          intro member
          rcases List.mem_cons.mp member with rfl | later
          · exact lt_irrefl _ before
          · exact lt_asymm before (least key later)
        rw [absent]
        simp only [insert, before, if_true, List.map_cons, List.sum_cons, Option.elim_none, add_zero]
        rw [add_comm]
      · by_cases same : key = stored
        · subst same
          simp only [insert, lt_irrefl, if_false, if_true, lookup, List.map_cons, List.sum_cons,
            Option.elim_some]
          rw [add_assoc, add_comm, add_comm (weight old)]
        · simp only [insert, before, same, if_false, lookup, Ne.symm same, List.map_cons,
            List.sum_cons, add_assoc, ih ordered]

/-- Keys that are all present are at most as many as the entries. -/
theorem length_le_of_present {entries : List (κ × ν)} {keys : List κ} (distinct : keys.Nodup)
    (present : ∀ key ∈ keys, (lookup entries key).isSome) : keys.length ≤ entries.length := by
  have inside : keys ⊆ entries.map Prod.fst := fun key member =>
    lookup_isSome_iff.mp (present key member)
  simpa using (distinct.subperm inside).length_le

end Crashlog.OrderedMap
