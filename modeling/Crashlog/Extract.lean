import Crashlog.Source
import Crashlog.PathBuf
import Mathlib.Data.Finset.Card
import Mathlib.Data.Set.Finite.Basic

/-!
# Output files

Extracted Crash Logs are written to files that do not exist yet. The name of a
file gets an index until it is free, but the index counts only where the name
does: with an output path that is neither a directory nor a regular file, the
loop tests the same path again and again.
-/

namespace Crashlog

open Bytes

inductive FileKind where
  | file
  | directory
  | special
  deriving DecidableEq, Repr

/-- The file system that Crash Logs are written to. -/
structure Disk (State : Type) where
  kind : State → PathBuf → Option FileKind
  write : State → PathBuf → List Byte → Except String Unit × State

namespace Disk

variable {State : Type} (disk : Disk State) (state : State)

def pathExists (path : PathBuf) : Bool := (disk.kind state path).isSome

def isFile (path : PathBuf) : Bool := disk.kind state path = some .file

def isDir (path : PathBuf) : Bool := disk.kind state path = some .directory

end Disk

namespace Extract

def filename (metadata : Metadata) (idx : Int32) : String :=
  if 0 < idx then metadata.display ++ "-" ++ Text.displayI32 idx ++ ".crashlog"
  else metadata.display ++ ".crashlog"

inductive Choice where
  | refused (path : PathBuf)
  | fresh (path : PathBuf)
  deriving DecidableEq, Repr

inductive Outcome where
  | written (path : PathBuf)
  | writeFailed (path : PathBuf) (message : String)
  | refused (message : String)
  deriving DecidableEq, Repr

variable {State : Type} (disk : Disk State)

def outputFile (state : State) (outputPath : Option PathBuf) (filename : String) : PathBuf :=
  match outputPath with
  | none => filename
  | some outputPath => if disk.isDir state outputPath then PathBuf.push outputPath filename else outputPath

/-- The loop over the index, an `i32`. -/
def choose (state : State) (outputPath : Option PathBuf) (metadata : Metadata) : Nat → Int32 → Option Choice
  | 0, _ => none
  | fuel + 1, idx =>
      let path := outputFile disk state outputPath (filename metadata idx)
      if disk.pathExists state path then
        if outputPath.any (disk.isFile state) then some (.refused path)
        else choose state outputPath metadata fuel (idx + 1)
      else some (.fresh path)

def save (fuel : Nat) (outputPath : Option PathBuf) (state : State) (crashlog : CrashLog) :
    Option (Outcome × State) :=
  (choose disk state outputPath crashlog.metadata fuel 0).map fun
    | .refused path => (.refused (path ++ ": file already exists."), state)
    | .fresh path =>
        match disk.write state path crashlog.toBytes with
        | (.ok (), state) => (.written path, state)
        | (.error err, state) => (.writeFailed path ("Failed to write Crash Log file: " ++ err), state)

/-! ## The contract -/

/-- A Crash Log is written to a path that did not exist, or an error is
reported. -/
def Sound (state : State) (crashlog : CrashLog) : Outcome → State → Prop
  | .written path, next =>
      disk.pathExists state path = false ∧ disk.write state path crashlog.toBytes = (.ok (), next)
  | .writeFailed path message, next =>
      disk.pathExists state path = false ∧ ∃ err, disk.write state path crashlog.toBytes = (.error err, next) ∧
        message = "Failed to write Crash Log file: " ++ err
  | .refused _, next => next = state

/-- The loop ends for every Crash Log, one after the other, and each is saved
as it should be. -/
def SavesAll (outputPath : Option PathBuf) : State → List CrashLog → Prop
  | _, [] => True
  | state, crashlog :: rest =>
      ∃ fuel outcome next, save disk fuel outputPath state crashlog = some (outcome, next) ∧
        Sound disk state crashlog outcome next ∧ SavesAll outputPath next rest

/-- A name that is not taken is within reach. -/
def CanSave (outputPath : Option PathBuf) (state : State) (metadata : Metadata) : Prop :=
  match outputPath with
  | none => ∃ idx, disk.pathExists state (filename metadata idx) = false
  | some outputPath =>
      match disk.kind state outputPath with
      | some .special => False
      | some .directory => ∃ idx, disk.pathExists state (PathBuf.push outputPath (filename metadata idx)) = false
      | _ => True

/-- Every step of the run can save its Crash Log. -/
def CanSaveAll (outputPath : Option PathBuf) : State → List CrashLog → Prop
  | _, [] => True
  | state, crashlog :: rest =>
      CanSave disk outputPath state crashlog.metadata ∧
        ∀ fuel outcome next, save disk fuel outputPath state crashlog = some (outcome, next) →
          CanSaveAll outputPath next rest

variable {disk} {state : State} {outputPath : Option PathBuf} {metadata : Metadata} {crashlog : CrashLog}

/-! ## The loop -/

theorem choose_eq_none (unfiled : outputPath.any (disk.isFile state) = false)
    (all : ∀ idx, disk.pathExists state (outputFile disk state outputPath (filename metadata idx)) = true)
    (fuel : Nat) (idx : Int32) : choose disk state outputPath metadata fuel idx = none := by
  induction fuel generalizing idx with
  | zero => rfl
  | succ fuel ih =>
      rw [choose]
      simp only [all, unfiled, if_true, Bool.false_eq_true, if_false, ih]

theorem choose_ends_of_free {count : Nat} {idx : Int32}
    (free : disk.pathExists state (outputFile disk state outputPath
      (filename metadata (idx + Int32.ofNat count))) = false) :
    ∃ choice, choose disk state outputPath metadata (count + 1) idx = some choice := by
  induction count generalizing idx with
  | zero =>
      rw [show Int32.ofNat 0 = 0 from rfl, Int32.add_zero] at free
      exact ⟨_, by rw [choose]; simp only [free, Bool.false_eq_true, if_false]; rfl⟩
  | succ count ih =>
      rw [choose]
      split_ifs
      · exact ⟨_, rfl⟩
      · apply ih
        rwa [Int32.add_assoc, Int32.add_comm 1, show Int32.ofNat count + 1 = Int32.ofNat (count + 1) from
          (Int32.ofNat_add count 1).symm]
      · exact ⟨_, rfl⟩

/-- The loop ends exactly when the output path is a regular file or some index
gives a free path. -/
theorem choose_ends_iff :
    (∃ fuel choice, choose disk state outputPath metadata fuel 0 = some choice) ↔
      outputPath.any (disk.isFile state) = true ∨
        ∃ idx, disk.pathExists state (outputFile disk state outputPath (filename metadata idx)) = false := by
  constructor
  · rintro ⟨fuel, choice, chosen⟩
    by_contra stuck
    rw [not_or, not_exists] at stuck
    have none := choose_eq_none (by simpa using stuck.1) (fun idx => by simpa using stuck.2 idx) fuel 0
    rw [none] at chosen
    cases chosen
  · rintro (filed | ⟨idx, free⟩)
    · refine ⟨1, ?_⟩
      rw [choose]
      split_ifs
      · exact ⟨_, rfl⟩
      · exact ⟨_, rfl⟩
    · have reached : (0 : Int32) + Int32.ofNat idx.toBitVec.toNat = idx := by
        rw [Int32.zero_add]
        exact Int32.toBitVec_inj.mp (by simp)
      exact ⟨_, choose_ends_of_free (by rwa [reached])⟩

theorem choose_sound {fuel : Nat} {idx : Int32} {path : PathBuf}
    (chosen : choose disk state outputPath metadata fuel idx = some (.fresh path)) :
    disk.pathExists state path = false := by
  induction fuel generalizing idx with
  | zero => cases chosen
  | succ fuel ih =>
      rw [choose] at chosen
      split_ifs at chosen with taken
      · cases chosen
      · exact ih chosen
      · cases chosen
        simpa using taken

theorem output_file_of_not_dir {path : PathBuf} (plain : disk.kind state path ≠ some .directory)
    (filename : String) : outputFile disk state (some path) filename = path := by
  rw [outputFile, Disk.isDir, decide_eq_false plain]
  rfl

theorem output_file_of_dir {path : PathBuf} (directory : disk.kind state path = some .directory)
    (filename : String) : outputFile disk state (some path) filename = PathBuf.push path filename := by
  rw [outputFile, Disk.isDir, decide_eq_true directory]
  rfl

/-- What the kind of the output path means for the loop. -/
theorem can_save_iff :
    CanSave disk outputPath state metadata ↔
      outputPath.any (disk.isFile state) = true ∨
        ∃ idx, disk.pathExists state (outputFile disk state outputPath (filename metadata idx)) = false := by
  cases outputPath with
  | none => simp [CanSave, outputFile]
  | some outputPath =>
      rw [CanSave, Option.any_some]
      match kind : disk.kind state outputPath with
      | some .directory => simp [output_file_of_dir kind, Disk.isFile, kind]
      | some .special => simp [output_file_of_not_dir, Disk.isFile, Disk.pathExists, kind]
      | some .file => simp [Disk.isFile, kind]
      | none => simp [output_file_of_not_dir, Disk.isFile, Disk.pathExists, kind]

/-! ## One Crash Log -/

theorem save_sound {fuel : Nat} {outcome : Outcome} {next : State}
    (saved : save disk fuel outputPath state crashlog = some (outcome, next)) :
    Sound disk state crashlog outcome next := by
  obtain ⟨choice, chosen, same⟩ := Option.map_eq_some_iff.mp saved
  cases choice with
  | refused path =>
      cases same
      rfl
  | fresh path =>
      dsimp only at same
      split at same
      · next written =>
          cases same
          exact ⟨choose_sound chosen, written⟩
      · next failed =>
          cases same
          exact ⟨choose_sound chosen, _, failed, rfl⟩

theorem choose_mono {fuel more : Nat} {idx : Int32} {choice : Choice}
    (chosen : choose disk state outputPath metadata fuel idx = some choice) (enough : fuel ≤ more) :
    choose disk state outputPath metadata more idx = some choice := by
  induction fuel generalizing idx more with
  | zero => cases chosen
  | succ fuel ih =>
      obtain ⟨more, rfl⟩ := Nat.exists_eq_add_of_lt (Nat.lt_of_succ_le enough)
      rw [choose] at chosen ⊢
      split_ifs at chosen ⊢ with taken filed
      · exact chosen
      · exact ih chosen (by omega)
      · exact chosen

theorem save_unique {fuel otherFuel : Nat} {first second : Outcome × State}
    (saved : save disk fuel outputPath state crashlog = some first)
    (otherSaved : save disk otherFuel outputPath state crashlog = some second) : first = second := by
  obtain ⟨choice, chosen, rfl⟩ := Option.map_eq_some_iff.mp saved
  obtain ⟨other, otherChosen, rfl⟩ := Option.map_eq_some_iff.mp otherSaved
  have same := (choose_mono chosen (le_max_left _ _)).symm.trans (choose_mono otherChosen (le_max_right _ _))
  rw [Option.some.inj same]

theorem save_ends_iff :
    (∃ fuel outcome next, save disk fuel outputPath state crashlog = some (outcome, next)) ↔
      CanSave disk outputPath state crashlog.metadata := by
  rw [can_save_iff, ← choose_ends_iff]
  simp only [save, Option.map_eq_some_iff]
  constructor
  · rintro ⟨fuel, _, _, choice, chosen, _⟩
    exact ⟨fuel, choice, chosen⟩
  · rintro ⟨fuel, choice, chosen⟩
    exact ⟨fuel, _, _, choice, chosen, rfl⟩

/-! ## The whole run -/

/-- Every Crash Log is saved as it should be exactly when each step finds a
regular file or a free name at the output path. -/
theorem saves_all_iff {State : Type} (disk : Disk State) (outputPath : Option PathBuf) (state : State)
    (result : List CrashLog) :
    SavesAll disk outputPath state result ↔ CanSaveAll disk outputPath state result := by
  induction result generalizing state with
  | nil => exact Iff.rfl
  | cons crashlog rest ih =>
      constructor
      · rintro ⟨fuel, outcome, next, saved, _, later⟩
        refine ⟨save_ends_iff.mp ⟨fuel, outcome, next, saved⟩, ?_⟩
        intro otherFuel other otherNext otherSaved
        have same := save_unique otherSaved saved
        cases same
        exact (ih next).mp later
      · rintro ⟨able, later⟩
        obtain ⟨fuel, outcome, next, saved⟩ := save_ends_iff.mpr able
        exact ⟨fuel, outcome, next, saved, save_sound saved, (ih next).mpr (later fuel outcome next saved)⟩

/-- The disk holds nothing but a special file. -/
def deviceDisk : Disk Unit where
  kind _ path := if path = "/dev/null" then some .special else none
  write state _ _ := (.ok (), state)

theorem device_disk_finite : {path | deviceDisk.pathExists () path = true}.Finite := by
  apply (Set.finite_singleton "/dev/null").subset
  intro path found
  by_contra other
  have missing : deviceDisk.kind () path = none := if_neg other
  have absent : deviceDisk.pathExists () path = false := by rw [Disk.pathExists, missing]; rfl
  exact absurd (found.symm.trans absent) (by decide)

/-- An existing special file is tested for ever. -/
theorem device_never_saved : ¬ ∀ (State : Type) (disk : Disk State) (outputPath : Option PathBuf) (state : State)
    (_ : {path | disk.pathExists state path = true}.Finite) (result : List CrashLog),
    SavesAll disk outputPath state result := by
  intro saves
  obtain ⟨fuel, outcome, next, saved, _⟩ := saves Unit deviceDisk (some "/dev/null") () device_disk_finite [{}]
  have able : CanSave deviceDisk (some "/dev/null") () {} := save_ends_iff.mp ⟨fuel, outcome, next, saved⟩
  exact able

/-! ## Enough names -/

/-- What the index adds to the name. -/
def suffix (idx : Int32) : String :=
  if 0 < idx then "-" ++ Text.displayI32 idx ++ ".crashlog" else ".crashlog"

theorem filename_eq (metadata : Metadata) (idx : Int32) :
    filename metadata idx = metadata.display ++ suffix idx := by
  rw [filename, suffix]
  split_ifs
  · simp only [String.append_assoc]
  · rfl

theorem is_absolute_filename (metadata : Metadata) (idx : Int32) :
    PathBuf.isAbsolute (filename metadata idx) = PathBuf.isAbsolute metadata.display := by
  rw [filename_eq]
  by_cases empty : metadata.display.toList = []
  · rw [String.toList_eq_nil_iff.mp empty, String.empty_append, suffix]
    split_ifs
    · simp [PathBuf.isAbsolute]
    · decide
  · exact PathBuf.is_absolute_append empty _

/-- What is in front of the name does not depend on the index. -/
theorem exists_front (base : PathBuf) (metadata : Metadata) :
    ∃ front, ∀ idx, PathBuf.push base (filename metadata idx) = front ++ filename metadata idx := by
  by_cases absolute : PathBuf.isAbsolute metadata.display = true
  · refine ⟨"", fun idx => ?_⟩
    rw [PathBuf.push, is_absolute_filename, if_pos absolute, String.empty_append]
  · by_cases unseparated : base.toList.getLast?.any (· != '/') = true
    · refine ⟨base ++ String.singleton '/', fun idx => ?_⟩
      rw [PathBuf.push, is_absolute_filename, if_neg absolute, if_pos unseparated]
    · refine ⟨base, fun idx => ?_⟩
      rw [PathBuf.push, is_absolute_filename, if_neg absolute, if_neg unseparated]

theorem first_of_suffix (idx : Int32) :
    (suffix idx).toList.head? = some (if 0 < idx then '-' else '.') := by
  rw [suffix]
  split_ifs
  · simp
  · decide

theorem suffix_injective {i j : Nat} (iSmall : i < 2 ^ 31) (jSmall : j < 2 ^ 31)
    (same : suffix (Int32.ofNat i) = suffix (Int32.ofNat j)) : i = j := by
  have sign : ∀ n < 2 ^ 31, (0 < Int32.ofNat n ↔ 0 < n) := fun n small =>
    Int32.ofNat_lt_iff_lt (by decide) small
  have firsts := congrArg (fun text => text.toList.head?) same
  simp only [first_of_suffix, sign i iSmall, sign j jSmall, Option.some.injEq] at firsts
  rw [suffix, suffix] at same
  simp only [sign i iSmall, sign j jSmall] at same
  split_ifs at same firsts with first second second
  · rw [String.append_assoc, String.append_assoc, String.append_right_inj, String.append_left_inj] at same
    have values := congrArg Int32.toInt (Text.display_injective same)
    rw [Int32.toInt_ofNat_of_lt iSmall, Int32.toInt_ofNat_of_lt jSmall] at values
    exact Int.ofNat.inj values
  · exact absurd firsts (by decide)
  · exact absurd firsts (by decide)
  · omega

/-- While fewer than 2 ^ 31 paths exist, only the kind of the output path
matters. -/
theorem can_save_of_few {paths : Finset PathBuf} (few : paths.card < 2 ^ 31)
    (all : ∀ path, disk.pathExists state path = true → path ∈ paths)
    (plain : ∀ path, outputPath = some path → disk.kind state path ≠ some .special) (metadata : Metadata) :
    CanSave disk outputPath state metadata := by
  have free : ∀ front, ∃ idx, disk.pathExists state (front ++ filename metadata idx) = false := by
    intro front
    by_contra taken
    rw [not_exists] at taken
    have crowded : (Finset.range (2 ^ 31)).card ≤ paths.card := by
      refine Finset.card_le_card_of_injOn (fun i => front ++ filename metadata (Int32.ofNat i)) ?_ ?_
      · intro i _
        exact all _ (by simpa using taken (Int32.ofNat i))
      · intro i iSmall j jSmall same
        simp only [filename_eq, String.append_right_inj] at same
        exact suffix_injective (Finset.mem_range.mp iSmall) (Finset.mem_range.mp jSmall) same
    rw [Finset.card_range] at crowded
    exact absurd few (not_lt.mpr crowded)
  cases outputPath with
  | none =>
      obtain ⟨idx, missing⟩ := free ""
      exact ⟨idx, by rwa [String.empty_append] at missing⟩
  | some outputPath =>
      rw [CanSave]
      split
      · next special => exact plain outputPath rfl special
      · obtain ⟨front, names⟩ := exists_front outputPath metadata
        obtain ⟨idx, missing⟩ := free front
        exact ⟨idx, by rwa [names]⟩
      · trivial

end Extract

end Crashlog
