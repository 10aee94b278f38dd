import Mathlib.Data.List.Basic

/-!
# Actions that may fail

An action changes a state and returns or fails; a failure leaves the state as
the action left it. A loop over such actions stops at the first failure. What
each action keeps the loop keeps, and what one action brings about and the
others keep is there once the loop has returned.
-/

namespace Crashlog

abbrev Attempt (State Fault : Type*) := State → Except Fault Unit × State

namespace Attempt

variable {State Fault Item Part : Type*} {action other : Item → Attempt State Fault} {items : List Item}
  {state : State}

def fail (fault : Fault) : Attempt State Fault := fun state => (.error fault, state)

def andThen (first second : Attempt State Fault) : Attempt State Fault := fun state =>
  match first state with
  | (.ok (), next) => second next
  | (.error fault, next) => (.error fault, next)

def forEach (action : Item → Attempt State Fault) : List Item → Attempt State Fault
  | [] => fun state => (.ok (), state)
  | item :: rest => andThen (action item) (forEach action rest)

theorem and_then_of_ok {first second : Attempt State Fault} (returned : (first state).1 = .ok ()) :
    andThen first second state = second (first state).2 := by
  unfold andThen
  rcases result : first state with ⟨_ | _, next⟩
  · rw [result] at returned
    cases returned
  · rfl

theorem and_then_of_error {first second : Attempt State Fault} {fault : Fault}
    (failed : (first state).1 = .error fault) : andThen first second state = (.error fault, (first state).2) := by
  unfold andThen
  rcases result : first state with ⟨_ | _, next⟩
  · rw [result] at failed
    cases failed
    rfl
  · rw [result] at failed
    cases failed

theorem and_then_assoc (first second third : Attempt State Fault) :
    andThen (andThen first second) third = andThen first (andThen second third) := by
  refine funext fun state => ?_
  cases returned : (first state).1 with
  | error fault =>
      rw [and_then_of_error returned, and_then_of_error]
      · rw [and_then_of_error returned]
      · rw [and_then_of_error returned]
  | ok =>
      rw [and_then_of_ok returned]
      unfold andThen
      rw [← Prod.eta (first state), returned]

theorem for_each_append (first second : List Item) :
    forEach action (first ++ second) = andThen (forEach action first) (forEach action second) := by
  induction first with
  | nil => rfl
  | cons item rest ih => rw [List.cons_append, forEach, ih, forEach, and_then_assoc]

/-- A loop over loops is one loop over all their items. -/
theorem for_each_flat_map (parts : Item → List Part) (act : Part → Attempt State Fault) (items : List Item) :
    forEach (fun item => forEach act (parts item)) items = forEach act (items.flatMap parts) := by
  induction items with
  | nil => rfl
  | cons item rest ih => rw [List.flatMap_cons, for_each_append, forEach, ih]

theorem for_each_map (f : Part → Item) (parts : List Part) :
    forEach action (parts.map f) = forEach (fun part => action (f part)) parts := by
  induction parts with
  | nil => rfl
  | cons part rest ih => rw [List.map_cons, forEach, forEach, ih]

/-- The state is related to the one before, whether the action returns or fails. -/
def Keeps (attempt : Attempt State Fault) (P : State → Prop) : Prop :=
  ∀ state, P state → P (attempt state).2

theorem Keeps.and_then {P : State → Prop} {first second : Attempt State Fault} (one : first.Keeps P)
    (two : second.Keeps P) : (andThen first second).Keeps P := by
  intro state holds
  cases returned : (first state).1 with
  | error fault =>
      rw [and_then_of_error returned]
      exact one state holds
  | ok =>
      rw [and_then_of_ok returned]
      exact two _ (one state holds)

theorem Keeps.for_each {P : State → Prop} (each : ∀ item ∈ items, (action item).Keeps P) :
    (forEach action items).Keeps P := by
  induction items with
  | nil => exact fun _ holds => holds
  | cons item rest ih =>
      rw [List.forall_mem_cons] at each
      exact each.1.and_then (ih each.2)

/-- Two loops agree whose actions agree as long as a property holds that they keep. -/
theorem for_each_congr {P : State → Prop} (keeps : ∀ item ∈ items, (action item).Keeps P)
    (same : ∀ item ∈ items, ∀ state, P state → action item state = other item state) (holds : P state) :
    forEach action items state = forEach other items state := by
  induction items generalizing state with
  | nil => rfl
  | cons item rest ih =>
      rw [List.forall_mem_cons] at keeps same
      have first := same.1 state holds
      cases returned : (action item state).1 with
      | error fault =>
          rw [forEach, forEach, and_then_of_error returned, and_then_of_error (first ▸ returned), first]
      | ok =>
          rw [forEach, forEach, and_then_of_ok returned, and_then_of_ok (first ▸ returned), ← first]
          exact ih keeps.2 same.2 (keeps.1 state holds)

theorem and_then_returned {first second : Attempt State Fault} (returned : (andThen first second state).1 = .ok ()) :
    (first state).1 = .ok () ∧ (second (first state).2).1 = .ok () := by
  cases result : (first state).1 with
  | error fault =>
      rw [and_then_of_error result] at returned
      cases returned
  | ok =>
      rw [and_then_of_ok result] at returned
      exact ⟨rfl, returned⟩

/-- In a loop that returns every item had its turn: what the action brings
about for one item, and no other action takes away, holds at the end. -/
theorem for_each_brings {P : State → Prop} {chosen : Item} (member : chosen ∈ items)
    (brings : ∀ state, (action chosen state).1 = .ok () → P (action chosen state).2)
    (keeps : ∀ item ∈ items, ∀ state, (action item state).1 = .ok () → P state → P (action item state).2)
    (returned : (forEach action items state).1 = .ok ()) : P (forEach action items state).2 := by
  have stays (rest : List Item) (part : ∀ item ∈ rest, item ∈ items) (between : State) (holds : P between)
      (done : (forEach action rest between).1 = .ok ()) : P (forEach action rest between).2 := by
    induction rest generalizing between with
    | nil => exact holds
    | cons item rest ih =>
        rw [List.forall_mem_cons] at part
        obtain ⟨first, others⟩ := and_then_returned done
        rw [forEach, and_then_of_ok first]
        exact ih part.2 _ (keeps item part.1 between first holds) others
  obtain ⟨before, after, split⟩ := List.mem_iff_append.mp member
  rw [split, for_each_append] at returned ⊢
  obtain ⟨_, others⟩ := and_then_returned returned
  have early := (and_then_returned returned).1
  obtain ⟨turn, late⟩ := and_then_returned others
  rw [and_then_of_ok early, forEach, and_then_of_ok turn]
  refine stays after ?_ _ (brings _ turn) late
  intro item inside
  rw [split]
  exact List.mem_append_right _ (List.mem_cons_of_mem _ inside)

/-- In a loop that returns each action returned in its turn. -/
theorem for_each_each {P : State → Prop} {chosen : Item} (member : chosen ∈ items)
    (keeps : ∀ item ∈ items, (action item).Keeps P) (holds : P state)
    (returned : (forEach action items state).1 = .ok ()) :
    ∃ between, P between ∧ (action chosen between).1 = .ok () := by
  obtain ⟨before, after, rfl⟩ := List.mem_iff_append.mp member
  rw [for_each_append] at returned
  obtain ⟨_, others⟩ := and_then_returned returned
  refine ⟨_, Keeps.for_each (fun item inside => keeps item ?_) _ holds, (and_then_returned others).1⟩
  exact List.mem_append_left _ inside

end Attempt

end Crashlog
