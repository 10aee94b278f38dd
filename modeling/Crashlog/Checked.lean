import Crashlog.Bytes
import Mathlib.Data.List.Defs

/-!
# Computations that can panic

A debug build panics where an integer does not fit its type, where an index or
a range leaves its slice, where a text is cut inside a character and where an
expected value is missing. A function
that is written with these checks either panics or returns. `Agrees` compares
it with a function without checks: whatever it returns is the value of the
other, and it does return when it is safe to.
-/

namespace Crashlog

inductive Panic where
  | overflow
  | outOfRange
  | missing
  | emptyChunks
  | charBoundary
  | divisionByZero
  | clampBounds
  deriving DecidableEq, Repr

abbrev Checked := Except Panic

namespace Checked

variable {α β σ : Type}

def require (condition : Prop) [Decidable condition] (panic : Panic) : Checked Unit :=
  if condition then .ok () else .error panic

/-- An unsigned integer of `width` bits. -/
def fits (width value : Nat) : Checked Unit := require (value < 2 ^ width) .overflow

/-- A difference of unsigned integers. -/
def sub (value less : Nat) : Checked Nat := do
  require (less ≤ value) .overflow
  .ok (value - less)

/-- The unchecked range `start .. stop` of a slice. -/
def range (items : List α) (start stop : Nat) : Checked (List α) :=
  match Bytes.slice items start stop with
  | some found => .ok found
  | none => .error .outOfRange

/-- The unchecked open range `start ..` of a slice. -/
def rangeFrom (items : List α) (start : Nat) : Checked (List α) :=
  match Bytes.sliceFrom items start with
  | some found => .ok found
  | none => .error .outOfRange

def index (items : List α) (position : Nat) : Checked α :=
  match items[position]? with
  | some item => .ok item
  | none => .error .outOfRange

/-- The items in pieces of a size that must not be zero. -/
def chunks (size : Nat) (items : List α) : Checked (List (List α)) := do
  require (size ≠ 0) .emptyChunks
  .ok (items.toChunks size)

/-- A result that may be missing: the caller then returns as well. -/
def ofOption (found : Option α) : OptionT Checked α := OptionT.mk (.ok found)

structure Agrees (safe : Prop) (checked : Checked α) (value : α) : Prop where
  returns : safe → checked = .ok value
  same : ∀ result, checked = .ok result → result = value

namespace Agrees

variable {safe stricter condition : Prop} {checked : Checked α} {next : α → Checked β} {value : α} {result : β}

theorem ok (safe : Prop) (value : α) : Agrees safe (.ok value) value where
  returns _ := rfl
  same result returned := by
    cases returned
    rfl

theorem error (risky : ¬ safe) (panic : Panic) (value : α) : Agrees safe (.error panic) value where
  returns holds := absurd holds risky
  same result returned := by cases returned

theorem mono (agrees : Agrees safe checked value) (implies : stricter → safe) :
    Agrees stricter checked value where
  returns strict := agrees.returns (implies strict)
  same := agrees.same

theorem bind (front : Agrees safe checked value) (back : Agrees safe (next value) result) :
    Agrees safe (checked >>= next) result where
  returns holds := by
    rw [front.returns holds]
    exact back.returns holds
  same final returned := by
    cases run : checked with
    | error panic =>
        rw [run] at returned
        cases returned
    | ok middle =>
        rw [run] at returned
        cases front.same middle run
        exact back.same final returned

theorem map (front : Agrees safe checked value) (f : α → β) : Agrees safe (checked.map f) (f value) where
  returns holds := by
    rw [front.returns holds]
    rfl
  same final returned := by
    cases run : checked with
    | error panic =>
        rw [run] at returned
        cases returned
    | ok middle =>
        rw [run] at returned
        cases front.same middle run
        cases returned
        rfl

/-- A check that holds where it is safe. -/
theorem require [Decidable condition] {panic : Panic} {rest : Checked β} (holds : safe → condition)
    (back : Agrees safe rest result) : Agrees safe (Checked.require condition panic >>= fun _ => rest) result := by
  have passed : Agrees safe (Checked.require condition panic) () := by
    constructor
    · intro here
      exact if_pos (holds here)
    · intro _ _
      rfl
  exact passed.bind back

theorem fits {width number : Nat} {rest : Checked β} (holds : safe → number < 2 ^ width)
    (back : Agrees safe rest result) : Agrees safe (Checked.fits width number >>= fun _ => rest) result :=
  require holds back

theorem range {items found : List α} {start stop : Nat} (read : Bytes.slice items start stop = some found) :
    Agrees safe (Checked.range items start stop) found := by
  rw [Checked.range, read]
  exact ok safe found

theorem range_from {items found : List α} {start : Nat} (read : Bytes.sliceFrom items start = some found) :
    Agrees safe (Checked.rangeFrom items start) found := by
  rw [Checked.rangeFrom, read]
  exact ok safe found

theorem index {items : List α} {position : Nat} {item : α} (read : items[position]? = some item) :
    Agrees safe (Checked.index items position) item := by
  rw [Checked.index, read]
  exact ok safe item

/-- A loop over a list, when every turn agrees. -/
theorem foldl {step : σ → α → Checked σ} {plain : σ → α → σ} {items : List α}
    (turn : ∀ item ∈ items, ∀ state, Agrees safe (step state item) (plain state item)) (state : σ) :
    Agrees safe (items.foldlM step state) (items.foldl plain state) := by
  induction items generalizing state with
  | nil => exact ok safe state
  | cons item rest ih =>
      rw [List.foldlM_cons, List.foldl_cons]
      apply bind (turn item List.mem_cons_self state)
      exact ih (fun other member => turn other (List.mem_cons_of_mem _ member)) _

theorem mapM {step : α → Checked β} {plain : α → β} {items : List α}
    (turn : ∀ item ∈ items, Agrees safe (step item) (plain item)) :
    Agrees safe (items.mapM step) (items.map plain) := by
  induction items with
  | nil => exact ok safe []
  | cons item rest ih =>
      rw [List.mapM_cons, List.map_cons]
      apply bind (turn item List.mem_cons_self)
      apply bind (ih fun other member => turn other (List.mem_cons_of_mem _ member))
      exact ok safe _

section Missing

variable {found : Option α} {next : α → OptionT Checked β} {plain : α → Option β} {rest : OptionT Checked β}
  {result : Option β}

theorem of_option (back : ∀ item, found = some item → Agrees safe (next item).run (plain item)) :
    Agrees safe (Checked.ofOption found >>= next).run (found.bind plain) := by
  cases found with
  | none => exact ok safe none
  | some item => exact back item rfl

theorem try_bind {front : OptionT Checked α} (agrees : Agrees safe front.run found)
    (back : ∀ item, found = some item → Agrees safe (next item).run (plain item)) :
    Agrees safe (front >>= next).run (found.bind plain) := by
  rw [OptionT.run_bind]
  apply bind agrees
  cases found with
  | none => exact ok safe none
  | some item => exact back item rfl

theorem lift (front : Agrees safe checked value) (back : Agrees safe (next value).run result) :
    Agrees safe ((liftM checked : OptionT Checked α) >>= next).run result := by
  rw [OptionT.run_bind]
  exact (front.map some).bind back

theorem lift_fits {width number : Nat} (holds : safe → number < 2 ^ width)
    (back : Agrees safe rest.run result) :
    Agrees safe ((liftM (Checked.fits width number) : OptionT Checked Unit) >>= fun _ => rest).run result := by
  have passed : Agrees safe (Checked.fits width number >>= fun _ => .ok ()) () := fits holds (ok safe ())
  rw [show (Checked.fits width number >>= fun _ => .ok ()) = Checked.fits width number from bind_pure _] at passed
  exact passed.lift back

theorem mapM_option {step : α → OptionT Checked β} {items : List α}
    (turn : ∀ item ∈ items, Agrees safe (step item).run (plain item)) :
    Agrees safe (items.mapM step).run (items.mapM plain) := by
  induction items with
  | nil => exact ok safe (some [])
  | cons item rest ih =>
      rw [List.mapM_cons, List.mapM_cons]
      apply try_bind (turn item List.mem_cons_self)
      intro first _
      apply try_bind (ih fun other member => turn other (List.mem_cons_of_mem _ member))
      intro others _
      exact ok safe _

end Missing

end Agrees

end Checked

end Crashlog
