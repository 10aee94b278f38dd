import Crashlog.Pager

/-!
# Runs of the pager

The pager draws the screen, waits for keys and carries out commands. The
window stays on a line of the text whatever is pressed, but not every step
returns: a run is free of panics exactly when each of its steps finds a text,
a console and a search pattern that its arithmetic is made for.
-/

namespace Crashlog

namespace Checked

variable {α β : Type}

def Returns (checked : Checked α) : Prop := ∃ value, checked = .ok value

@[simp] theorem returns_ok (value : α) : Returns (.ok value) := ⟨value, rfl⟩

@[simp] theorem returns_error (panic : Panic) : ¬ Returns (.error panic : Checked α) := by
  rintro ⟨value, same⟩
  cases same

@[simp] theorem returns_require {condition : Prop} [Decidable condition] {panic : Panic} {rest : Checked β} :
    Returns (require condition panic >>= fun _ => rest) ↔ condition ∧ Returns rest := by
  rw [require]
  split_ifs with holds
  · exact (and_iff_right holds).symm
  · exact iff_of_false (returns_error panic) fun both => holds both.1

@[simp] theorem returns_fits {width value : Nat} {rest : Checked β} :
    Returns (fits width value >>= fun _ => rest) ↔ value < 2 ^ width ∧ Returns rest := returns_require

@[simp] theorem returns_sub {value less : Nat} {rest : Nat → Checked β} :
    Returns (sub value less >>= rest) ↔ less ≤ value ∧ Returns (rest (value - less)) := by
  rw [sub, require]
  split_ifs with holds
  · exact (and_iff_right holds).symm
  · exact iff_of_false (returns_error .overflow) fun both => holds both.1

theorem returns_bind {checked : Checked α} {rest : α → Checked β} :
    Returns (checked >>= rest) ↔ ∃ value, checked = .ok value ∧ Returns (rest value) := by
  cases checked with
  | error panic => exact iff_of_false (returns_error panic) (by rintro ⟨value, same, _⟩; cases same)
  | ok value =>
      constructor
      · exact fun returns => ⟨value, rfl, returns⟩
      · rintro ⟨other, same, returns⟩
        cases same
        exact returns

/-- Where the rest always returns, only the front counts. -/
theorem returns_bind_of {checked : Checked α} {rest : α → Checked β} (always : ∀ value, Returns (rest value)) :
    Returns (checked >>= rest) ↔ Returns checked := by
  rw [returns_bind]
  exact exists_congr fun value => and_iff_left (always value)

@[simp] theorem returns_map {checked : Checked α} {f : α → β} : Returns (checked.map f) ↔ Returns checked := by
  cases checked <;> simp [Except.map]

theorem returns_map_m {step : α → Checked β} {items : List α} :
    Returns (items.mapM step) ↔ ∀ item ∈ items, Returns (step item) := by
  induction items with
  | nil => exact iff_of_true ⟨[], rfl⟩ (by simp)
  | cons item rest ih =>
      rw [List.mapM_cons, List.forall_mem_cons, ← ih]
      constructor
      · intro returns
        obtain ⟨value, first, later⟩ := returns_bind.mp returns
        obtain ⟨values, others, _⟩ := returns_bind.mp later
        exact ⟨⟨value, first⟩, values, others⟩
      · rintro ⟨⟨value, first⟩, values, others⟩
        rw [first]
        exact returns_bind.mpr ⟨value, rfl, returns_bind.mpr ⟨values, others, returns_ok _⟩⟩

end Checked

namespace Text

def IsAscii (text : String) : Prop := ∀ c ∈ text.toList, c.utf8Size = 1

instance IsAscii.decidable (text : String) : Decidable (IsAscii text) :=
  List.decidableBAll _ text.toList

theorem IsAscii.utf8_byte_size {text : String} (ascii : IsAscii text) :
    text.utf8ByteSize = text.toList.length := by
  induction text using String.push_induction with
  | empty => rfl
  | push text c ih =>
      rw [IsAscii, String.toList_push] at ascii
      rw [String.utf8ByteSize_push, String.toList_push, List.length_append,
        ih fun other member => ascii other (List.mem_append_left _ member),
        ascii c (List.mem_append_right _ List.mem_cons_self), List.length_singleton]

theorem cut_chars_of_ascii {chars : List Char} (ascii : ∀ c ∈ chars, c.utf8Size = 1) {position : Nat}
    (inside : position ≤ chars.length) : (cutChars chars position).isSome := by
  induction chars generalizing position with
  | nil =>
      cases Nat.le_zero.mp inside
      rfl
  | cons c rest ih =>
      cases position with
      | zero => rfl
      | succ position =>
          rw [List.forall_mem_cons] at ascii
          rw [cutChars, ascii.1, if_pos (Nat.le_add_left 1 position), Option.isSome_map, Nat.add_sub_cancel]
          exact ih ascii.2 (Nat.le_of_succ_le_succ inside)

/-- An ASCII text can be cut anywhere. -/
theorem IsAscii.cut_at {text : String} (ascii : IsAscii text) {position : Nat}
    (inside : position ≤ text.utf8ByteSize) : (cutAt text position).isSome := by
  rw [cutAt, Option.isSome_map]
  exact cut_chars_of_ascii ascii (ascii.utf8_byte_size ▸ inside)

theorem IsAscii.lines {text line : String} (ascii : IsAscii text) (member : line ∈ lines text) : IsAscii line := by
  intro c inside
  obtain ⟨chars, found, rfl⟩ := List.mem_map.mp member
  rw [String.toList_ofList] at inside
  suffices ∃ piece ∈ text.toList.splitOn '\n', c ∈ piece by
    obtain ⟨piece, split, contained⟩ := this
    exact ascii c (mem_of_mem_splitOn split contained)
  rcases List.mem_append.mp found with ended | open'
  · obtain ⟨piece, split, rfl⟩ := List.mem_map.mp ended
    refine ⟨piece, List.mem_of_mem_dropLast split, ?_⟩
    rw [stripCarriageReturn] at inside
    split_ifs at inside
    · exact List.mem_of_mem_dropLast inside
    · exact inside
  · split_ifs at open' with empty
    · cases open'
    · rw [List.mem_singleton] at open'
      subst open'
      refine ⟨_, ?_, inside⟩
      rw [List.getLastD_eq_getLast?, List.getLast?_eq_some_getLast (List.splitOn_ne_nil _ _)]
      exact List.getLast_mem _

end Text

def Key.IsPlain : Key → Prop
  | .printable k => k.val.utf8Size = 1
  | .special _ => True

instance Key.IsPlain.decidable : (key : Key) → Decidable key.IsPlain
  | .printable k => inferInstanceAs (Decidable (k.val.utf8Size = 1))
  | .special _ => .isTrue trivial

namespace Pager

open Checked

variable {pager : Pager}

/-- The console has room for the status bar, and the window is on a line. -/
structure Valid (pager : Pager) : Prop where
  columns : 13 ≤ pager.window.columns
  rows : 2 ≤ pager.window.rows
  line : pager.window.line < max 1 pager.lines.length

/-! ## Rendering -/

/-- The line is not cut inside a character. -/
def CutsWhole (pager : Pager) (line : String) : Prop :=
  (Text.cutAt line (min pager.window.columns line.utf8ByteSize)).isSome

/-- What a rendering needs of the pager. -/
structure Renderable (pager : Pager) : Prop where
  page : pager.window.line + pager.window.rows < 2 ^ 64
  lines : ∀ idx line, pager.window.line ≤ idx → idx < pager.window.line + pager.window.rows - 1 →
    pager.lines[idx]? = some line → pager.CutsWhole line
  status : pager.mode = .view → pager.window.rows ≤ pager.lines.length ∧
    100 * min pager.window.line (pager.lines.length - pager.window.rows + 1) < 2 ^ 64
  pattern : pager.mode = .search → pager.searchPattern.utf8ByteSize < SEARCH_PATTERN_SIZE ∨
    (Text.cutAt pager.searchPattern (pager.searchPattern.utf8ByteSize - SEARCH_PATTERN_SIZE + 3)).isSome

theorem render_line_returns (idx : Nat) :
    Returns (pager.renderLine idx) ↔ ∀ line, pager.lines[idx]? = some line → pager.CutsWhole line := by
  rw [renderLine]
  cases pager.lines[idx]? with
  | none => simp
  | some line =>
      simp only [Option.some.injEq, forall_eq', CutsWhole]
      cases Text.cutAt line (min pager.window.columns line.utf8ByteSize) with
      | none => simp
      | some parts =>
          refine iff_of_true ?_ rfl
          dsimp only
          split_ifs <;> exact returns_ok _

theorem render_page_returns (valid : pager.Valid) :
    Returns pager.renderPage ↔ pager.window.line + pager.window.rows < 2 ^ 64 ∧
      ∀ idx line, pager.window.line ≤ idx → idx < pager.window.line + pager.window.rows - 1 →
        pager.lines[idx]? = some line → pager.CutsWhole line := by
  have rows := valid.rows
  rw [renderPage, returns_fits, returns_sub, returns_bind_of fun _ => returns_ok _, returns_map_m]
  refine and_congr_right fun _ => ?_
  rw [and_iff_right (by omega : 1 ≤ pager.window.line + pager.window.rows)]
  simp only [render_line_returns, List.mem_range'_1]
  constructor
  · intro cuts idx line above below found
    exact cuts idx ⟨above, by omega⟩ line found
  · rintro cuts idx ⟨above, below⟩ line found
    exact cuts idx line above (by omega) found

theorem percent_returns (valid : pager.Valid) :
    Returns pager.percent ↔ pager.window.rows ≤ pager.lines.length ∧
      100 * min pager.window.line (pager.lines.length - pager.window.rows + 1) < 2 ^ 64 := by
  have rows := valid.rows
  have counted := pager.counted
  rw [percent, returns_sub, returns_fits, returns_fits, returns_require]
  refine and_congr_right fun enough => ?_
  rw [and_iff_right (by omega), and_iff_left ⟨by omega, returns_ok _⟩]

/-- The percentage that is shown is one. -/
theorem percent_le {shown : Nat} (computed : pager.percent = .ok shown) : shown ≤ 100 := by
  have returns : Returns pager.percent := ⟨shown, computed⟩
  rw [percent, returns_sub, returns_fits, returns_fits, returns_require] at returns
  obtain ⟨enough, small, product, _, _⟩ := returns
  rw [percent, sub, require, if_pos enough] at computed
  simp only [Bind.bind, Except.bind, fits, require, if_pos small, if_pos product] at computed
  rw [if_pos (Nat.succ_ne_zero _)] at computed
  cases computed
  apply Nat.div_le_of_le_mul
  rw [Nat.mul_comm]
  exact Nat.mul_le_mul_right _ (min_le_right _ _)

theorem render_search_pattern_returns :
    Returns pager.renderSearchPattern ↔ pager.searchPattern.utf8ByteSize < SEARCH_PATTERN_SIZE ∨
      (Text.cutAt pager.searchPattern (pager.searchPattern.utf8ByteSize - SEARCH_PATTERN_SIZE + 3)).isSome := by
  rw [renderSearchPattern]
  by_cases short : pager.searchPattern.utf8ByteSize < SEARCH_PATTERN_SIZE
  · simp only [short, if_true, true_or, iff_true]
    exact returns_ok _
  · simp only [short, if_false, false_or]
    rw [returns_sub, and_iff_right (not_lt.mp short)]
    cases Text.cutAt pager.searchPattern (pager.searchPattern.utf8ByteSize - SEARCH_PATTERN_SIZE + 3) <;> simp

theorem render_line_status_returns (valid : pager.Valid) :
    Returns pager.renderLineStatus ↔ Returns pager.percent := by
  have columns := valid.columns
  have rows := valid.rows
  have line := valid.line
  have counted := pager.counted
  rw [renderLineStatus]
  apply returns_bind_of
  intro shown
  rw [returns_sub, returns_sub, returns_fits]
  exact ⟨by omega, by omega, by omega, returns_ok _⟩

/-- A rendering returns exactly when the pager has what it needs. -/
theorem render_returns (valid : pager.Valid) : Returns pager.render ↔ pager.Renderable := by
  have bar : Returns pager.render ↔ Returns pager.renderPage ∧ Returns pager.renderStatusBar := by
    rw [render, returns_bind]
    simp only [returns_bind_of fun _ => returns_ok _]
    exact ⟨fun ⟨page, drawn, rest⟩ => ⟨⟨page, drawn⟩, rest⟩, fun ⟨⟨page, drawn⟩, rest⟩ => ⟨page, drawn, rest⟩⟩
  have status : Returns pager.renderStatusBar ↔
      (pager.mode = .view → Returns pager.percent) ∧ (pager.mode = .search → Returns pager.renderSearchPattern) := by
    rw [renderStatusBar]
    cases pager.mode with
    | view => simp [returns_bind_of fun _ => returns_ok _, render_line_status_returns valid]
    | search => simp
  rw [bar, status, render_page_returns valid, percent_returns valid, render_search_pattern_returns]
  exact ⟨fun ⟨⟨page, lines⟩, status, pattern⟩ => ⟨page, lines, status, pattern⟩,
    fun needs => ⟨⟨needs.page, needs.lines⟩, needs.status, needs.pattern⟩⟩

/-! ## Commands -/

/-- The window can be moved: the sum has 32 bits and there is a last line. -/
def Movable (pager : Pager) (delta : Int) : Prop :=
  IsI32 (asI32 pager.window.line + delta) ∧ 1 ≤ asI32 pager.lines.length

/-- What a command needs of the pager. -/
def Accepts (pager : Pager) : Command → Prop
  | .down => pager.Movable 1
  | .up => pager.Movable (-1)
  | .pageUp => IsI32 (asI32 pager.window.rows - 2) ∧ IsI32 (-(asI32 pager.window.rows - 2)) ∧
      pager.Movable (-(asI32 pager.window.rows - 2))
  | .pageDown => IsI32 (asI32 pager.window.rows - 2) ∧ pager.Movable (asI32 pager.window.rows - 2)
  | _ => True

theorem as_i32_lt (value : Nat) : asI32 value < 2 ^ 31 := Int32.toInt_lt _

theorem as_i32_le (value : Nat) : asI32 value ≤ value := by
  rw [asI32, Int32.toInt_ofNat', Int.bmod_def]
  have size : (Int32.size : Int) = 2 ^ 32 := rfl
  rw [size]
  split_ifs <;> omega

theorem move_window_returns (delta : Int) : Returns (pager.moveWindow delta) ↔ pager.Movable delta := by
  have small := as_i32_lt pager.lines.length
  rw [moveWindow, returns_require, returns_require, returns_require, Movable]
  refine and_congr_right fun _ => ?_
  constructor
  · rintro ⟨_, positive, _⟩
    omega
  · intro positive
    exact ⟨⟨by omega, by omega⟩, by omega, returns_ok _⟩

theorem page_size_bind {β : Type} {rest : Int → Checked β} :
    Returns (pager.pageSize >>= rest) ↔
      IsI32 (asI32 pager.window.rows - 2) ∧ Returns (rest (asI32 pager.window.rows - 2)) := by
  rw [pageSize, require]
  split_ifs with holds
  · exact (and_iff_right holds).symm
  · exact iff_of_false (returns_error .overflow) fun both => holds both.1

theorem update_returns (valid : pager.Valid) (command : Command) :
    Returns (pager.update command) ↔ pager.Accepts command := by
  have columns := valid.columns
  have rows := valid.rows
  have line := valid.line
  have counted := pager.counted
  cases command with
  | top => exact iff_of_true (returns_ok _) trivial
  | bottom =>
      rw [update, returns_sub]
      exact iff_of_true ⟨by omega, returns_ok _⟩ trivial
  | down => rw [update, returns_map, move_window_returns, Accepts]
  | up => rw [update, returns_map, move_window_returns, Accepts]
  | pageUp => rw [update, page_size_bind, returns_require, returns_map, move_window_returns, Accepts]
  | pageDown => rw [update, page_size_bind, returns_map, move_window_returns, Accepts]
  | next =>
      rw [update, returns_fits]
      exact iff_of_true ⟨by omega, returns_ok _⟩ trivial
  | previous => exact iff_of_true (returns_ok _) trivial
  | quit =>
      rw [update, clearStatusBar]
      refine iff_of_true ((returns_bind_of fun _ => returns_ok _).mpr ?_) trivial
      rw [returns_sub, returns_sub]
      exact ⟨by omega, by omega, returns_ok _⟩
  | refresh => exact iff_of_true (returns_ok _) trivial

/-! ## The window stays on a line -/

theorem Valid.at_line (valid : pager.Valid) {line : Nat} (inside : line < max 1 pager.lines.length) :
    (pager.atLine line).Valid where
  columns := valid.columns
  rows := valid.rows
  line := inside

theorem move_window_moves {delta : Int} {next : Pager}
    (moved : pager.moveWindow delta = .ok next) : ∃ line < max 1 pager.lines.length, next = pager.atLine line := by
  have returns : Returns (pager.moveWindow delta) := ⟨next, moved⟩
  rw [moveWindow, returns_require, returns_require, returns_require] at returns
  obtain ⟨small, lastSmall, positive, _⟩ := returns
  simp only [moveWindow, Bind.bind, Except.bind, require, if_pos small, if_pos lastSmall, if_pos positive] at moved
  cases moved
  have bound := as_i32_le pager.lines.length
  exact ⟨_, by omega, rfl⟩

theorem search_moves (valid : pager.Valid) (indexes : List Nat) :
    ∃ line < max 1 pager.lines.length, pager.search indexes = pager.atLine line := by
  rw [Pager.search]
  split
  · next idx found =>
      have matching := List.find?_some found
      cases present : pager.lines[idx]? with
      | none =>
          rw [present] at matching
          cases matching
      | some line =>
          obtain ⟨inside, _⟩ := List.getElem?_eq_some_iff.mp present
          exact ⟨idx, by omega, rfl⟩
  · exact ⟨pager.window.line, valid.line, rfl⟩

theorem map_some_eq_ok {α : Type} {checked : Checked α} {value : α}
    (mapped : checked.map some = .ok (some value)) : checked = .ok value := by
  cases checked with
  | error panic => cases mapped
  | ok other =>
      cases mapped
      rfl

/-- All that a command does is to put the window on a line. -/
theorem update_moves (valid : pager.Valid) {command : Command} {next : Pager}
    (updated : pager.update command = .ok (some next)) :
    ∃ line < max 1 pager.lines.length, next = pager.atLine line := by
  have rows := valid.rows
  cases command with
  | top =>
      cases updated
      exact ⟨0, by omega, rfl⟩
  | bottom =>
      obtain ⟨above, difference, same⟩ := except_bind_eq_ok.mp updated
      obtain ⟨_, _, same'⟩ := except_bind_eq_ok.mp difference
      cases same'
      cases same
      exact ⟨_, by omega, rfl⟩
  | down => exact move_window_moves (map_some_eq_ok updated)
  | up => exact move_window_moves (map_some_eq_ok updated)
  | pageUp =>
      obtain ⟨size, _, rest⟩ := except_bind_eq_ok.mp updated
      obtain ⟨_, _, moved⟩ := except_bind_eq_ok.mp rest
      exact move_window_moves (map_some_eq_ok moved)
  | pageDown =>
      obtain ⟨size, _, moved⟩ := except_bind_eq_ok.mp updated
      exact move_window_moves (map_some_eq_ok moved)
  | next =>
      obtain ⟨_, _, same⟩ := except_bind_eq_ok.mp updated
      cases same
      exact search_moves valid _
  | previous =>
      cases updated
      exact search_moves valid _
  | quit =>
      obtain ⟨_, _, same⟩ := except_bind_eq_ok.mp updated
      cases same
  | refresh =>
      cases updated
      exact ⟨pager.window.line, valid.line, rfl⟩

/-- A key changes the mode and the pattern only. -/
theorem next_command_keeps (pager : Pager) (key : Key) :
    (pager.nextCommand key).2.lines = pager.lines ∧ (pager.nextCommand key).2.window = pager.window := by
  have viewed : (pager.viewMode key).2.lines = pager.lines ∧ (pager.viewMode key).2.window = pager.window := by
    cases key with
    | printable k =>
        rw [viewMode]
        split_ifs <;> exact ⟨rfl, rfl⟩
    | special code => cases code <;> exact ⟨rfl, rfl⟩
  have searched : (pager.searchMode key).2.lines = pager.lines ∧ (pager.searchMode key).2.window = pager.window := by
    cases key with
    | printable k =>
        rw [searchMode]
        split_ifs <;> exact ⟨rfl, rfl⟩
    | special code => cases code <;> exact ⟨rfl, rfl⟩
  rw [nextCommand]
  cases pager.mode with
  | view => exact viewed
  | search => exact searched

theorem Valid.next_command (valid : pager.Valid) (key : Key) : (pager.nextCommand key).2.Valid := by
  obtain ⟨lines, window⟩ := next_command_keeps pager key
  exact ⟨window ▸ valid.columns, window ▸ valid.rows, by rw [lines, window]; exact valid.line⟩

/-! ## The loop -/

/-- Where the loop of the pager is. -/
inductive State where
  | rendering (pager : Pager)
  | waiting (pager : Pager)
  | finished

/-- A key is read and its command, if it has one, is carried out. -/
def keyStep (pager : Pager) (key : Key) : Checked State :=
  match pager.nextCommand key with
  | (none, pager) => .ok (.waiting pager)
  | (some command, pager) => do
      match ← pager.update command with
      | none => .ok .finished
      | some pager => .ok (.rendering pager)

/-- The states reached once the given keys have been read. -/
inductive Reaches (start : State) : List Key → State → Prop where
  | start : Reaches start [] start
  | render {keys : List Key} {pager : Pager} {calls : List OutputCall}
      (reached : Reaches start keys (.rendering pager)) (rendered : pager.render = .ok calls) :
      Reaches start keys (.waiting pager)
  | key {keys : List Key} {pager : Pager} {key : Key} {next : State}
      (reached : Reaches start keys (.waiting pager)) (stepped : pager.keyStep key = .ok next) :
      Reaches start (keys ++ [key]) next

/-- The loop over the pressed keys does not panic, its window stays on a line
and the percentage it shows is one. -/
structure NeverPanics (start : State) (pressed : List Key) : Prop where
  renders : ∀ keys pager, keys <+: pressed → Reaches start keys (.rendering pager) → Returns pager.render
  steps : ∀ keys key pager, keys ++ [key] <+: pressed → Reaches start keys (.waiting pager) →
    Returns (pager.keyStep key)
  line : ∀ keys pager, keys <+: pressed → Reaches start keys (.rendering pager) ∨ Reaches start keys (.waiting pager) →
    pager.window.line < max 1 pager.lines.length
  percent : ∀ keys pager shown, keys <+: pressed → Reaches start keys (.rendering pager) →
    pager.percent = .ok shown → shown ≤ 100

/-- Every step of the run finds what it needs. -/
structure StepsFit (start : State) (pressed : List Key) : Prop where
  renders : ∀ keys pager, keys <+: pressed → Reaches start keys (.rendering pager) → pager.Renderable
  commands : ∀ keys key pager command, keys ++ [key] <+: pressed → Reaches start keys (.waiting pager) →
    (pager.nextCommand key).1 = some command → (pager.nextCommand key).2.Accepts command

/-- What holds of the pager that goes on. -/
def State.Holds (holds : Pager → Prop) : State → Prop
  | rendering pager => holds pager
  | waiting pager => holds pager
  | finished => True

/-- A key is ignored, ends the loop, or puts the window on a line. -/
theorem key_step_cases (valid : pager.Valid) {key : Key} {next : State} (stepped : pager.keyStep key = .ok next) :
    next = .waiting (pager.nextCommand key).2 ∨ next = .finished ∨
      ∃ line < max 1 (pager.nextCommand key).2.lines.length,
        next = .rendering ((pager.nextCommand key).2.atLine line) := by
  have kept := valid.next_command key
  rw [keyStep] at stepped
  split at stepped
  · next after found =>
      cases stepped
      rw [found]
      exact .inl rfl
  · next command after found =>
      rw [found] at kept ⊢
      obtain ⟨result, updated, same⟩ := except_bind_eq_ok.mp stepped
      cases result with
      | none =>
          cases same
          exact .inr (.inl rfl)
      | some moved =>
          cases same
          obtain ⟨line, inside, rfl⟩ := update_moves kept updated
          exact .inr (.inr ⟨line, inside, rfl⟩)

theorem key_step_valid (valid : pager.Valid) {key : Key} {next : State}
    (stepped : pager.keyStep key = .ok next) : next.Holds Valid := by
  have kept := valid.next_command key
  rcases key_step_cases valid stepped with rfl | rfl | ⟨line, inside, rfl⟩
  · exact kept
  · trivial
  · exact kept.at_line inside

/-- What every key of a run preserves holds in each of its states. -/
theorem Reaches.invariant {holds : Pager → Prop} {start : State} {keys : List Key} {state : State}
    (reached : Reaches start keys state) (started : start.Holds holds)
    (preserved : ∀ key ∈ keys, ∀ pager next, holds pager → keyStep pager key = .ok next → next.Holds holds) :
    state.Holds holds := by
  induction reached with
  | start => exact started
  | render _ _ ih => exact ih preserved
  | key _ stepped ih =>
      rw [List.forall_mem_append, List.forall_mem_singleton] at preserved
      exact preserved.2 _ _ (ih preserved.1) stepped

/-- The window stays on a line in every state of a run. -/
theorem Reaches.valid {start : State} {keys : List Key} {state : State} (valid : start.Holds Valid)
    (reached : Reaches start keys state) : state.Holds Valid :=
  reached.invariant valid fun _ _ _ _ valid stepped => key_step_valid valid stepped

theorem key_step_returns (valid : pager.Valid) (key : Key) :
    Returns (pager.keyStep key) ↔
      ∀ command, (pager.nextCommand key).1 = some command → (pager.nextCommand key).2.Accepts command := by
  have kept := valid.next_command key
  rw [keyStep]
  split
  · next after found => simp [found]
  · next command after found =>
      rw [found] at kept
      rw [found, returns_bind_of, update_returns kept]
      · simp
      · intro result
        cases result <;> exact returns_ok _

/-- The state in which the pager starts on a console. -/
def initial (text : String) (counted : (Text.lines text).length < 2 ^ 63) (columns rows : Nat) : State :=
  .rendering (Pager.new text counted { columns, rows })

theorem initial_valid (text : String) (counted : (Text.lines text).length < 2 ^ 63) {columns rows : Nat}
    (wide : 13 ≤ columns) (high : 2 ≤ rows) : (initial text counted columns rows).Holds Valid where
  columns := wide
  rows := high
  line := by simp [new]

/-! ## Plain texts -/

/-- A text and a pattern of single bytes, and as many lines as the console has
rows. -/
structure Plain (pager : Pager) : Prop where
  lines : ∀ line ∈ pager.lines, Text.IsAscii line
  pattern : Text.IsAscii pager.searchPattern
  long : pager.window.rows ≤ pager.lines.length
  small : pager.lines.length + pager.window.rows < 2 ^ 31

theorem Plain.renderable (plain : pager.Plain) (valid : pager.Valid) : pager.Renderable := by
  have line := valid.line
  have long := plain.long
  have small := plain.small
  have rows := valid.rows
  refine ⟨by omega, fun idx text _ _ found => ?_, fun _ => ⟨long, by omega⟩, fun _ => ?_⟩
  · exact (plain.lines text (List.mem_of_getElem? found)).cut_at (min_le_right _ _)
  · by_cases short : pager.searchPattern.utf8ByteSize < SEARCH_PATTERN_SIZE
    · exact .inl short
    · rw [SEARCH_PATTERN_SIZE] at short ⊢
      exact .inr (plain.pattern.cut_at (by omega))

theorem as_i32_of_lt {value : Nat} (small : value < 2 ^ 31) : asI32 value = value :=
  Int32.toInt_ofNat_of_lt small

theorem Plain.accepts (plain : pager.Plain) (valid : pager.Valid) (command : Command) : pager.Accepts command := by
  have line := valid.line
  have rows := valid.rows
  have long := plain.long
  have small := plain.small
  have lines : asI32 pager.lines.length = pager.lines.length := as_i32_of_lt (by omega)
  have current : asI32 pager.window.line = pager.window.line := as_i32_of_lt (by omega)
  have screen : asI32 pager.window.rows = pager.window.rows := as_i32_of_lt (by omega)
  cases command <;> simp only [Accepts, Movable, IsI32, lines, current, screen] <;> omega

theorem Plain.of_pattern (plain : pager.Plain) {pattern : String} (ascii : Text.IsAscii pattern) (mode : PagerMode) :
    { pager with mode, searchPattern := pattern : Pager }.Plain where
  lines := plain.lines
  pattern := ascii
  long := plain.long
  small := plain.small

theorem Plain.at_line (plain : pager.Plain) (line : Nat) : (pager.atLine line).Plain where
  lines := plain.lines
  pattern := plain.pattern
  long := plain.long
  small := plain.small

theorem Plain.search_mode (plain : pager.Plain) {key : Key} (pressed : key.IsPlain) :
    (pager.searchMode key).2.Plain := by
  cases key with
  | printable k =>
      rw [searchMode]
      split_ifs
      · exact plain.of_pattern plain.pattern _
      · refine plain.of_pattern (fun c member => ?_) _
        rw [String.toList_push] at member
        rcases List.mem_append.mp member with before | last
        · exact plain.pattern c before
        · rw [List.mem_singleton.mp last]
          exact pressed
  | special code =>
      have dropped : Text.IsAscii (String.ofList pager.searchPattern.toList.dropLast) := by
        intro c member
        rw [String.toList_ofList] at member
        exact plain.pattern c (List.mem_of_mem_dropLast member)
      cases code <;> first | exact plain | exact plain.of_pattern dropped _

theorem Plain.view_mode (plain : pager.Plain) (key : Key) : (pager.viewMode key).2.Plain := by
  have cleared : Text.IsAscii "" := fun c member => absurd member List.not_mem_nil
  cases key with
  | printable k =>
      rw [viewMode]
      split_ifs <;> first | exact plain | exact plain.of_pattern cleared _
  | special code => cases code <;> exact plain

theorem Plain.next_command (plain : pager.Plain) {key : Key} (pressed : key.IsPlain) :
    (pager.nextCommand key).2.Plain := by
  rw [nextCommand]
  cases pager.mode with
  | view => exact plain.view_mode key
  | search => exact plain.search_mode pressed

theorem key_step_plain (plain : pager.Plain) (valid : pager.Valid) {key : Key} (pressed : key.IsPlain) {next : State}
    (stepped : pager.keyStep key = .ok next) : next.Holds Plain := by
  have kept := plain.next_command pressed
  rcases key_step_cases valid stepped with rfl | rfl | ⟨line, _, rfl⟩
  · exact kept
  · trivial
  · exact kept.at_line line

theorem State.Holds.and {first second : Pager → Prop} {state : State} (firstHolds : state.Holds first)
    (secondHolds : state.Holds second) : state.Holds fun pager => first pager ∧ second pager := by
  cases state with
  | rendering pager => exact ⟨firstHolds, secondHolds⟩
  | waiting pager => exact ⟨firstHolds, secondHolds⟩
  | finished => trivial

/-- A plain text stays plain while plain keys are pressed. -/
theorem Reaches.plain {start : State} {keys : List Key} {state : State} (valid : start.Holds Valid)
    (plain : start.Holds Plain) (reached : Reaches start keys state) (pressed : ∀ key ∈ keys, key.IsPlain) :
    state.Holds fun pager => pager.Valid ∧ pager.Plain :=
  reached.invariant (valid.and plain) fun key member _ _ both stepped =>
    (key_step_valid both.1 stepped).and (key_step_plain both.2 both.1 (pressed key member) stepped)

/-- On a plain text every step of every run over plain keys fits. -/
theorem plain_steps_fit (text : String) (counted : (Text.lines text).length < 2 ^ 63) {columns rows : Nat}
    (wide : 13 ≤ columns) (high : 2 ≤ rows) (ascii : Text.IsAscii text) (long : rows ≤ (Text.lines text).length)
    (small : (Text.lines text).length + rows < 2 ^ 31) {pressed : List Key} (keysPlain : ∀ key ∈ pressed, key.IsPlain) :
    StepsFit (initial text counted columns rows) pressed := by
  have valid := initial_valid text counted wide high
  have plain : (initial text counted columns rows).Holds Plain :=
    ⟨fun line member => ascii.lines member, fun c member => absurd member List.not_mem_nil, long, small⟩
  constructor
  · intro keys pager early reached
    obtain ⟨ready, still⟩ := reached.plain valid plain fun key member => keysPlain key (early.subset member)
    exact still.renderable ready
  · intro keys key pager command early reached _
    obtain ⟨ready, still⟩ := reached.plain valid plain fun key member =>
      keysPlain key (early.subset (List.mem_append_left _ member))
    have pressed := keysPlain key (early.subset (List.mem_append_right _ List.mem_cons_self))
    exact (still.next_command pressed).accepts (ready.next_command key) command

/-! ## Every run -/

/-- A run of the pager is free of panics if and only if every rendering and
every command finds what it needs. -/
theorem panic_free_iff (text : String) (counted : (Text.lines text).length < 2 ^ 63) (columns rows : Nat)
    (wide : 13 ≤ columns) (high : 2 ≤ rows) (pressed : List Key) :
    NeverPanics (initial text counted columns rows) pressed ↔
      StepsFit (initial text counted columns rows) pressed := by
  have start := initial_valid text counted wide high
  constructor
  · intro safe
    refine ⟨fun keys pager early reached => ?_, fun keys key pager command early reached => ?_⟩
    · exact (render_returns (reached.valid start)).mp (safe.renders keys pager early reached)
    · exact (key_step_returns (reached.valid start) key).mp (safe.steps keys key pager early reached) command
  · intro fits
    refine ⟨fun keys pager early reached => ?_, fun keys key pager early reached => ?_,
      fun keys pager _ reached => ?_, fun _ _ _ _ _ => percent_le⟩
    · exact (render_returns (reached.valid start)).mpr (fits.renders keys pager early reached)
    · exact (key_step_returns (reached.valid start) key).mpr fun command =>
        fits.commands keys key pager command early reached
    · rcases reached with rendering | waiting
      · exact (rendering.valid start).line
      · exact (waiting.valid start).line

/-- Three lines on a console of two rows, searched for a letter. -/
theorem short_text_safe :
    NeverPanics (initial "a\nb\nc" (by decide) 13 2)
      [.printable ⟨'/', by decide⟩, .printable ⟨'c', by decide⟩, .printable ⟨'\r', by decide⟩, .special .pageDown] :=
  (panic_free_iff "a\nb\nc" (by decide) 13 2 (by decide) (by decide) _).mpr
    (plain_steps_fit _ _ (by decide) (by decide) (by decide) (by decide) (by decide) (by decide))

/-- A text without lines on a usual console ends in a panic before the first
key. -/
theorem empty_text_panics :
    ¬ ∀ (text : String) (counted : (Text.lines text).length < 2 ^ 63) (columns rows : Nat), 13 ≤ columns → 2 ≤ rows →
      ∀ pressed, NeverPanics (initial text counted columns rows) pressed := by
  intro safe
  have counted : (Text.lines "").length < 2 ^ 63 := by decide
  have returns := (safe "" counted 80 25 (by decide) (by decide) []).renders [] _ List.prefix_rfl .start
  rw [render_returns (initial_valid "" counted (by decide) (by decide))] at returns
  exact absurd (returns.status rfl).1 (by decide : ¬ 25 ≤ (Text.lines "").length)

end Pager

end Crashlog
