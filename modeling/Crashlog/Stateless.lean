import Mathlib.Data.List.Basic

/-!
# Programs whose state does not show

A program threads a state and may fail. Its state does not show where an
invariant of the state determines what the program returns. Such programs
compose: what a sequence of them returns is what each returns on its own.
-/

namespace Crashlog

variable {σ α β γ : Type*}

/-- From every state with the invariant the program returns the same value, or
fails, and it keeps the invariant. -/
structure Stateless (Inv : σ → Prop) (program : σ → Option (β × σ)) (value : Option β) : Prop where
  returned : ∀ state, Inv state → (program state).map Prod.fst = value
  kept : ∀ state, Inv state → ∀ result after, program state = some (result, after) → Inv after

/-- The programs of a list one after the other. -/
def threadAll (step : α → σ → Option (β × σ)) : List α → σ → Option (List β × σ)
  | [], state => some ([], state)
  | first :: rest, state => do
      let (result, state) ← step first state
      let (results, state) ← threadAll step rest state
      some (result :: results, state)

namespace Stateless

variable {Inv : σ → Prop} {program : σ → Option (β × σ)} {value : Option β}

/-- Where the program comes to an end, it returns the value. -/
theorem value_eq (stateless : Stateless Inv program value) {state after : σ} (inv : Inv state) {result : β}
    (ran : program state = some (result, after)) : value = some result := by
  rw [← stateless.returned state inv, ran]
  rfl

theorem pure (result : β) : Stateless Inv (fun state => some (result, state)) (some result) where
  returned _ _ := rfl
  kept state inv _ _ ran := by
    cases ran
    exact inv

/-- A step that only computes. -/
theorem lift (value : Option β) : Stateless Inv (fun state => value.map (·, state)) value where
  returned state _ := by cases value <;> rfl
  kept state inv _ _ ran := by
    obtain ⟨_, _, same⟩ := Option.map_eq_some_iff.mp ran
    cases same
    exact inv

theorem bind {next : β × σ → Option (γ × σ)} {nextValue : β → Option γ} (stateless : Stateless Inv program value)
    (rest : ∀ result, Stateless Inv (fun state => next (result, state)) (nextValue result)) :
    Stateless Inv (fun state => (program state).bind next) (value.bind nextValue) where
  returned state inv := by
    rw [← stateless.returned state inv]
    cases ran : program state with
    | none => rfl
    | some pair =>
        exact (rest pair.1).returned pair.2 (stateless.kept state inv pair.1 pair.2 ran)
  kept state inv result after ran := by
    obtain ⟨pair, first, second⟩ := Option.bind_eq_some_iff.mp ran
    exact (rest pair.1).kept pair.2 (stateless.kept state inv pair.1 pair.2 first) result after second

/-- A function of the result. -/
theorem map (f : β → γ) (stateless : Stateless Inv program value) :
    Stateless Inv (fun state => (program state).map fun ran => (f ran.1, ran.2)) (value.map f) where
  returned state inv := by
    rw [← stateless.returned state inv, Option.map_map, Option.map_map]
    rfl
  kept state inv result after ran := by
    obtain ⟨pair, first, same⟩ := Option.map_eq_some_iff.mp ran
    cases same
    exact stateless.kept state inv pair.1 pair.2 first

/-- Only what the program does on the states with the invariant counts. -/
theorem congr {other : σ → Option (β × σ)} (stateless : Stateless Inv program value)
    (same : ∀ state, Inv state → other state = program state) : Stateless Inv other value where
  returned state inv := by rw [same state inv, stateless.returned state inv]
  kept state inv result after ran := by
    rw [same state inv] at ran
    exact stateless.kept state inv result after ran

/-- A loop over a list, with a result so far. -/
theorem fold {step : β → α → σ → Option (β × σ)} {stepValue : β → α → Option β} {items : List α}
    (stateless : ∀ result, ∀ item ∈ items, Stateless Inv (step result item) (stepValue result item)) (start : β) :
    Stateless Inv (fun state => items.foldlM (fun ran item => step ran.1 item ran.2) (start, state))
      (items.foldlM stepValue start) := by
  induction items generalizing start with
  | nil => exact .pure start
  | cons first rest ih =>
      have later := fun result item member => stateless result item (List.mem_cons_of_mem _ member)
      simp only [List.foldlM_cons]
      exact (stateless start first List.mem_cons_self).bind (ih later)

theorem thread_all {step : α → σ → Option (β × σ)} {stepValue : α → Option β} {items : List α}
    (stateless : ∀ item ∈ items, Stateless Inv (step item) (stepValue item)) :
    Stateless Inv (threadAll step items) (items.mapM stepValue) := by
  induction items with
  | nil => exact .pure []
  | cons first rest ih =>
      rw [List.mapM_cons]
      exact (stateless first List.mem_cons_self).bind fun result =>
        (ih fun item member => stateless item (List.mem_cons_of_mem _ member)).bind fun results =>
          .pure (result :: results)

/-- From any state with the invariant, a sequence of programs returns what each
of them returns from the first state. -/
theorem thread_all_alone {step : α → σ → Option (β × σ)} {stepValue : α → Option β}
    (stateless : ∀ item, Stateless Inv (step item) (stepValue item)) (items : List α) {state fresh : σ}
    (inv : Inv state) (freshInv : Inv fresh) :
    (threadAll step items state).map Prod.fst =
      items.mapM fun item => (step item fresh).map Prod.fst := by
  rw [(Stateless.thread_all fun item _ => stateless item).returned state inv]
  congr 1
  funext item
  exact ((stateless item).returned fresh freshInv).symm

end Stateless

end Crashlog
