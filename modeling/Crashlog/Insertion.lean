import Mathlib.Data.List.Induction
import Mathlib.Logic.Function.Basic

/-!
# Tables filled in some order

Entries are inserted one after the other, and the last entry of a key wins.
The table does not depend on the order exactly when the entries of a key all
have the same value.
-/

namespace Crashlog.Insertion

variable {κ ν : Type*} [DecidableEq κ]

abbrev Table (κ ν : Type*) := κ → Option ν

def insert (table : Table κ ν) (entry : κ × ν) : Table κ ν := Function.update table entry.1 (some entry.2)

def insertAll (table : Table κ ν) (entries : List (κ × ν)) : Table κ ν := entries.foldl insert table

/-- The entries of a key have one value. -/
def Agree (entries : List (κ × ν)) : Prop :=
  ∀ key left right, (key, left) ∈ entries → (key, right) ∈ entries → left = right

variable {table : Table κ ν} {entries other : List (κ × ν)} {key : κ} {value : ν}

theorem insert_all_last : insertAll table (entries ++ [(key, value)]) key = some value := by
  rw [insertAll, List.foldl_append]
  exact Function.update_self _ _ _

/-- What the table holds for a key was there before or is an entry. -/
theorem mem_of_insert_all (held : insertAll table entries key = some value) :
    table key = some value ∨ (key, value) ∈ entries := by
  induction entries using List.reverseRecOn with
  | nil => exact .inl held
  | append_singleton entries entry ih =>
      rw [insertAll, List.foldl_append, List.foldl_cons, List.foldl_nil, insert] at held
      by_cases same : key = entry.1
      · subst same
        rw [Function.update_self, Option.some.injEq] at held
        exact .inr (by simp [← held])
      · rw [Function.update_of_ne same] at held
        exact (ih held).imp_right (List.mem_append_left _)

theorem insert_all_of_mem (table : Table κ ν) (member : (key, value) ∈ entries) :
    ∃ held, insertAll table entries key = some held := by
  induction entries using List.reverseRecOn with
  | nil => cases member
  | append_singleton entries entry ih =>
      rw [insertAll, List.foldl_append, List.foldl_cons, List.foldl_nil, insert]
      by_cases same : key = entry.1
      · subst same
        exact ⟨_, Function.update_self _ _ _⟩
      · rw [Function.update_of_ne same]
        rcases List.mem_append.mp member with earlier | last
        · exact ih earlier
        · exact absurd (congrArg Prod.fst (List.mem_singleton.mp last)) same

/-- Entries that agree give the same table in every order. -/
theorem insert_all_perm (agree : Agree entries) (perm : other.Perm entries) :
    insertAll (fun _ => none) other = insertAll (fun _ => none) entries := by
  funext key
  cases held : insertAll (fun _ => none) entries key with
  | none =>
      cases otherHeld : insertAll (fun _ => none) other key with
      | none => rfl
      | some value =>
          have member := (mem_of_insert_all otherHeld).resolve_left (by simp)
          obtain ⟨kept, found⟩ := insert_all_of_mem (fun _ => none) (perm.mem_iff.mp member)
          rw [held] at found
          cases found
  | some value =>
      have member := (mem_of_insert_all held).resolve_left (by simp)
      obtain ⟨kept, found⟩ := insert_all_of_mem (fun _ => none) (perm.mem_iff.mpr member)
      have otherMember := perm.mem_iff.mp ((mem_of_insert_all found).resolve_left (by simp))
      rw [found, agree key kept value otherMember member]

end Crashlog.Insertion
