import Mathlib.Data.List.Flatten
import Mathlib.Data.List.Perm.Basic
import Mathlib.Algebra.Order.BigOperators.Group.List
import Mathlib.Tactic.Linarith

/-!
# Draining a stack that grows

Each step takes the first item of a stack, emits it and puts its children in
front of what remains. A weight by which the children of an item are together
lighter than the item bounds the number of steps.
-/

namespace Crashlog

structure Expansion (α : Type*) where
  /-- The children of an item, in the order in which they are taken. -/
  children : α → List α
  weight : α → Nat
  lighter : ∀ item, ((children item).map weight).sum < weight item

namespace Expansion

variable {α : Type*} (expansion : Expansion α)

def load (stack : List α) : Nat := (stack.map expansion.weight).sum

theorem load_append (first second : List α) :
    expansion.load (first ++ second) = expansion.load first + expansion.load second := by
  simp [load]

theorem load_step (item : α) (rest : List α) :
    expansion.load (expansion.children item ++ rest) < expansion.load (item :: rest) := by
  have lighter := expansion.lighter item
  rw [load_append]
  simp only [load, List.map_cons, List.sum_cons]
  omega

theorem child_lighter {item child : α} (member : child ∈ expansion.children item) :
    expansion.weight child < expansion.weight item :=
  (List.le_sum_of_mem (List.mem_map_of_mem member)).trans_lt (expansion.lighter item)

def run : List α → List α
  | [] => []
  | item :: rest => item :: run (expansion.children item ++ rest)
termination_by stack => expansion.load stack
decreasing_by exact expansion.load_step item rest

@[simp] theorem run_nil : expansion.run [] = [] := by rw [run]

theorem run_cons (item : α) (rest : List α) :
    expansion.run (item :: rest) = item :: expansion.run (expansion.children item ++ rest) := by
  rw [run]

/-- The output is the stack together with the children of everything emitted. -/
theorem run_perm (stack : List α) :
    (expansion.run stack).Perm (stack ++ (expansion.run stack).flatMap expansion.children) := by
  induction stack using Expansion.run.induct expansion with
  | case1 => simp
  | case2 item rest ih =>
      rw [run_cons, List.flatMap_cons, List.cons_append]
      refine (ih.trans ?_).cons item
      have swapped : (expansion.children item ++ rest).Perm (rest ++ expansion.children item) :=
        List.perm_append_comm
      simpa only [List.append_assoc] using swapped.append_right
        ((expansion.run (expansion.children item ++ rest)).flatMap expansion.children)

theorem mem_run_of_mem {stack : List α} {item : α} (member : item ∈ stack) :
    item ∈ expansion.run stack :=
  (expansion.run_perm stack).mem_iff.mpr (List.mem_append_left _ member)

/-- A map that commutes with taking children commutes with draining. -/
theorem run_map {β : Type*} (other : Expansion β) (f : α → β)
    (commutes : ∀ item, other.children (f item) = (expansion.children item).map f) (stack : List α) :
    (expansion.run stack).map f = other.run (stack.map f) := by
  induction stack using Expansion.run.induct expansion with
  | case1 => simp
  | case2 item rest ih =>
      rw [run_cons, List.map_cons, List.map_cons, run_cons, commutes, ih, List.map_append]

/-- What holds of the stack and passes to children holds of the output. -/
theorem run_induction (holds : α → Prop) {stack : List α} (start : ∀ item ∈ stack, holds item)
    (inherit : ∀ item, holds item → ∀ child ∈ expansion.children item, holds child) :
    ∀ item ∈ expansion.run stack, holds item := by
  induction stack using Expansion.run.induct expansion with
  | case1 => simp
  | case2 item rest ih =>
      have here := start item (by simp)
      rw [run_cons]
      intro emitted member
      rcases List.mem_cons.mp member with rfl | later
      · exact here
      · refine ih ?_ emitted later
        intro waiting waits
        rcases List.mem_append.mp waits with child | other
        · exact inherit item here waiting child
        · exact start waiting (by simp [other])

/-- Nothing is added exactly when no item of the stack has a child. -/
theorem run_length_eq_iff (stack : List α) :
    (expansion.run stack).length = stack.length ↔ ∀ item ∈ stack, expansion.children item = [] := by
  constructor
  · intro same item member
    have sizes := (expansion.run_perm stack).length_eq
    rw [List.length_append, same] at sizes
    have none : (expansion.run stack).flatMap expansion.children = [] :=
      List.eq_nil_of_length_eq_zero (by omega)
    exact List.flatMap_eq_nil_iff.mp none item (expansion.mem_run_of_mem member)
  · intro childless
    induction stack with
    | nil => simp
    | cons item rest ih =>
        rw [run_cons, childless item (by simp), List.nil_append, List.length_cons, List.length_cons,
          ih fun other member => childless other (by simp [member])]

theorem run_eq_self {stack : List α} (childless : ∀ item ∈ stack, expansion.children item = []) :
    expansion.run stack = stack := by
  induction stack with
  | nil => simp
  | cons item rest ih =>
      rw [run_cons, childless item (by simp), List.nil_append,
        ih fun other member => childless other (by simp [member])]

/-- What emitted items cost is paid for by the credit of the stack. -/
theorem run_sum_le {cost credit : α → Nat} (holds : α → Prop) (stack : List α)
    (start : ∀ item ∈ stack, holds item)
    (inherit : ∀ item, holds item → ∀ child ∈ expansion.children item, holds child)
    (paid : ∀ item, holds item → cost item + ((expansion.children item).map credit).sum ≤ credit item) :
    ((expansion.run stack).map cost).sum ≤ (stack.map credit).sum := by
  induction stack using Expansion.run.induct expansion with
  | case1 => simp
  | case2 item rest ih =>
      have own := start item (by simp)
      have here := paid item own
      have later := ih fun waiting waits => by
        rcases List.mem_append.mp waits with child | other
        · exact inherit item own waiting child
        · exact start waiting (by simp [other])
      rw [List.map_append, List.sum_append] at later
      rw [run_cons, List.map_cons, List.sum_cons, List.map_cons, List.sum_cons]
      omega

theorem run_length_le {cost : Nat} {credit : α → Nat}
    (paid : ∀ item, cost + ((expansion.children item).map credit).sum ≤ credit item)
    (stack : List α) : cost * (expansion.run stack).length ≤ (stack.map credit).sum := by
  have total := expansion.run_sum_le (fun _ => True) stack (fun _ _ => trivial)
    (fun _ _ _ _ => trivial) fun item _ => paid item
  rw [List.map_const', List.sum_replicate] at total
  rw [Nat.mul_comm]
  exact total

/-! ## The order of the output -/

theorem run_append (first second : List α) :
    expansion.run (first ++ second) = expansion.run first ++ expansion.run second := by
  induction first using Expansion.run.induct expansion with
  | case1 => simp
  | case2 item rest ih =>
      rw [List.cons_append, run_cons, run_cons, ← List.append_assoc, ih, List.cons_append]

theorem run_cons_eq (item : α) (rest : List α) :
    expansion.run (item :: rest) = expansion.run [item] ++ expansion.run rest := by
  rw [← run_append, List.singleton_append]

theorem run_perm_of_perm {first second : List α} (perm : first.Perm second) :
    (expansion.run first).Perm (expansion.run second) := by
  induction perm with
  | nil => exact .refl _
  | @cons item first second _ ih =>
      rw [expansion.run_cons_eq item first, expansion.run_cons_eq item second]
      exact ih.append_left _
  | swap first second rest =>
      have split : ∀ head next : α, expansion.run (head :: next :: rest) =
          expansion.run [head] ++ expansion.run [next] ++ expansion.run rest := by
        intro head next
        rw [expansion.run_cons_eq head, expansion.run_cons_eq next, List.append_assoc]
      rw [split, split]
      exact List.perm_append_comm.append_right _
  | trans _ _ first second => exact first.trans second

section Mirrored

variable {expansion} {other : Expansion α}
  (mirrored : ∀ item, other.children item = (expansion.children item).reverse)

include mirrored

theorem mirrored_perm (stack : List α) : (expansion.run stack).Perm (other.run stack) := by
  induction stack using Expansion.run.induct expansion with
  | case1 => simp
  | case2 item rest ih =>
      rw [run_cons, run_cons, mirrored]
      exact (ih.trans (other.run_perm_of_perm ((List.reverse_perm _).symm.append_right rest))).cons item

/-- The output tells which items the stack had and in which order. -/
theorem eq_of_mirrored_run {first second : List α} (same : expansion.run first = other.run second) :
    first = second := by
  induction first generalizing second with
  | nil =>
      cases second with
      | nil => rfl
      | cons item rest =>
          rw [run_nil, run_cons] at same
          cases same
  | cons item rest ih =>
      cases second with
      | nil =>
          rw [run_nil, run_cons] at same
          cases same
      | cons head others =>
          have heads : item = head := by
            rw [run_cons, run_cons] at same
            exact (List.cons.inj same).1
          subst heads
          rw [run_cons_eq, other.run_cons_eq] at same
          rw [ih (List.append_inj same (mirrored_perm mirrored [item]).length_eq).2]

/-- Taking children from the other end changes nothing exactly when the
children of every item read the same backwards. -/
theorem run_eq_mirrored_iff (stack : List α) :
    expansion.run stack = other.run stack ↔
      ∀ item ∈ expansion.run stack, expansion.children item = (expansion.children item).reverse := by
  induction stack using Expansion.run.induct expansion with
  | case1 => simp
  | case2 item rest ih =>
      rw [run_cons, run_cons, mirrored, List.cons.injEq, List.forall_mem_cons]
      constructor
      · rintro ⟨_, same⟩
        have parts := same
        rw [run_append, run_append] at parts
        have sizes := (mirrored_perm mirrored (expansion.children item)).trans
          (other.run_perm_of_perm (List.reverse_perm _).symm)
        have palindrome := eq_of_mirrored_run mirrored (List.append_inj parts sizes.length_eq).1
        rw [← palindrome] at same
        exact ⟨palindrome, ih.mp same⟩
      · rintro ⟨palindrome, below⟩
        rw [← palindrome]
        exact ⟨rfl, ih.mpr below⟩

end Mirrored

end Expansion

end Crashlog
