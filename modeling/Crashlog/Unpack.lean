import Crashlog.Attempt
import Crashlog.Digits
import Crashlog.Export
import Crashlog.PathBuf

/-!
# Unpacking

The regions of a Crash Log file are written to files next to it, named after
it and numbered. No two of them are one file and none is the input, so after
the command every region is read back from its file, as long as no other input
has the same stem in the same directory.
-/

namespace Crashlog

open Bytes

/-! ## File names -/

namespace PathBuf

/-- The last component, where it is a name. -/
def fileName (path : PathBuf) : Option String :=
  (components path).getLast?.filter fun name => name != "/" && name != "." && name != ".."

def parent (path : PathBuf) : PathBuf := collect (components path).dropLast

/-- What is in front of the last dot, unless the name starts with it. -/
def stem (name : String) : String :=
  match name.toList.reverse.dropWhile (· != '.') with
  | [] => name
  | [_] => name
  | _ :: front => String.ofList front.reverse

def fileStem (path : PathBuf) : Option String := (fileName path).map stem

def setFileName (path : PathBuf) (name : String) : PathBuf :=
  if (fileName path).isSome then push (parent path) name else push path name

/-- The name of a file in its directory. -/
structure IsName (name : String) : Prop where
  whole : '/' ∉ name.toList
  nonempty : name ≠ ""
  here : name ≠ "."
  above : name ≠ ".."

theorem is_name_of_file_name {path : PathBuf} {name : String} (named : fileName path = some name) : IsName name := by
  rw [fileName, Option.filter_eq_some_iff] at named
  obtain ⟨last, plain⟩ := named
  simp only [Bool.and_eq_true, bne_iff_ne] at plain
  have member : name ∈ components path := List.mem_of_getLast? last
  have inside : name ∈ names path := by
    rw [components] at member
    split_ifs at member
    · exact (List.mem_cons.mp member).resolve_left plain.1.1
    · exact (List.mem_cons.mp member).resolve_left plain.1.2
    · exact member
  rw [names, List.mem_filter, Bool.and_eq_true, bne_iff_ne] at inside
  exact ⟨Text.not_mem_of_split inside.1, inside.2.1, plain.1.2, plain.2⟩

/-- A name is its stem, followed by nothing or by an extension. -/
theorem stem_extension (name : String) :
    ∃ rest, name.toList = (stem name).toList ++ rest ∧ ∀ c ∈ rest.head?, c = '.' := by
  have whole : name.toList = (name.toList.reverse.dropWhile (· != '.')).reverse ++
      (name.toList.reverse.takeWhile (· != '.')).reverse := by
    rw [← List.reverse_append, List.takeWhile_append_dropWhile, List.reverse_reverse]
  rw [stem]
  split
  · exact ⟨[], by simp, by simp⟩
  · exact ⟨[], by simp, by simp⟩
  · next dot front _ found =>
      have isDot : dot = '.' := by
        have stopped := List.head?_dropWhile_not (· != '.') name.toList.reverse
        rw [found] at stopped
        simpa using stopped
      refine ⟨dot :: (name.toList.reverse.takeWhile (· != '.')).reverse, ?_, ?_⟩
      · rw [found, List.reverse_cons, List.append_assoc] at whole
        rw [String.toList_ofList]
        exact whole
      · simpa using isDot

end PathBuf

/-! ## The command -/

/-- The files that are read and written. -/
structure Files (State : Type) where
  read : State → PathBuf → Except String (List Byte)
  write : State → PathBuf → List Byte → Except String Unit × State

namespace Unpack

variable {State : Type} (files : Files State)

def regionName (filename : String) (i : Nat) : String := filename ++ "_region" ++ toString i ++ ".crashlog"

def regionPath (inputFile : PathBuf) (i : Nat) : PathBuf :=
  match PathBuf.fileStem inputFile with
  | some filename => PathBuf.setFileName inputFile (regionName filename i)
  | none => inputFile

def writeFile (path : PathBuf) (slice : List Byte) : Attempt State Error := fun state =>
  match files.write state path slice with
  | (.ok (), next) => (.ok (), next)
  | (.error message, next) => (.error (.ioError message), next)

def unpackCrashlog (inputFile : PathBuf) : Attempt State Error := fun state =>
  match files.read state inputFile with
  | .error message => (.error (.ioError message), state)
  | .ok bytes =>
      match CrashLog.fromSlice bytes with
      | .error error => (.error error, state)
      | .ok crashlog =>
          Attempt.forEach (fun (region, i) => writeFile files (regionPath inputFile i) region.toBytes)
            crashlog.regions.zipIdx state

theorem region_name_injective {left right : String} {i j : Nat} (same : regionName left i = regionName right j) :
    left = right ∧ i = j := by
  rw [regionName, regionName, String.append_left_inj] at same
  have chars : (left ++ "_region").toList ++ (toString i).toList =
      (right ++ "_region").toList ++ (toString j).toList := by
    rw [← String.toList_append, same, String.toList_append]
  have front (filename : String) (n : Nat) :
      ((filename ++ "_region").toList ++ (toString n).toList).rdropWhile Char.isDigit =
        (filename ++ "_region").toList := by
    have ending : (filename ++ "_region").toList = (filename.toList ++ "_regio".toList) ++ ['n'] := by
      simp
    rw [Text.rdrop_while_append fun c member => Text.nat_digits member, ending,
      List.rdropWhile_concat_neg _ _ _ (by decide)]
  have stems : left ++ "_region" = right ++ "_region" := by
    rw [← String.toList_inj, ← front left i, chars, front right j]
  rw [stems, String.append_right_inj] at same
  exact ⟨String.append_left_inj _ |>.mp stems, Text.nat_repr_injective same⟩

theorem region_name_is_name {name : String} (isName : PathBuf.IsName name) (i : Nat) :
    PathBuf.IsName (regionName (PathBuf.stem name) i) := by
  obtain ⟨rest, chars, _⟩ := PathBuf.stem_extension name
  have long : 7 < (regionName (PathBuf.stem name) i).toList.length := by
    simp [regionName]
    omega
  refine ⟨?_, ?_, ?_, ?_⟩
  · intro slash
    simp only [regionName, String.toList_append, List.mem_append] at slash
    rcases slash with ((stem | region) | digit) | ending
    · exact isName.whole (chars ▸ List.mem_append_left _ stem)
    · revert region
      decide
    · exact absurd (Text.nat_digits digit) (by decide)
    · revert ending
      decide
  all_goals
    intro short
    rw [short] at long
    revert long
    decide

end Unpack

/-- What the files of a file system do. Several paths may lead to one place. A
file is read through its name only, its name leads to it from its parent, and
no place has two names or two parents. -/
structure Files.Lawful {State : Type} (files : Files State) {Place : Type} (place : PathBuf → Place) : Prop where
  wrote : ∀ state path bytes, (files.write state path bytes).1 = .ok () →
    files.read (files.write state path bytes).2 path = .ok bytes
  others : ∀ state path bytes other, place other ≠ place path →
    files.read (files.write state path bytes).2 other = files.read state other
  named : ∀ state path bytes, files.read state path = .ok bytes → (PathBuf.fileName path).isSome
  reached : ∀ path name, PathBuf.fileName path = some name →
    place (PathBuf.push (PathBuf.parent path) name) = place path
  apart : ∀ path other first second, PathBuf.IsName first → PathBuf.IsName second →
    place (PathBuf.push path first) = place (PathBuf.push other second) → place path = place other ∧ first = second

namespace Unpack

variable {State : Type} {files : Files State} {Place : Type} {place : PathBuf → Place}

theorem region_path_eq {inputFile : PathBuf} {name : String} (named : PathBuf.fileName inputFile = some name)
    (i : Nat) :
    regionPath inputFile i = PathBuf.push (PathBuf.parent inputFile) (regionName (PathBuf.stem name) i) := by
  simp [regionPath, PathBuf.fileStem, PathBuf.setFileName, named]

/-- Two paths of regions that lead to one place are of one directory, one stem
and one number. -/
theorem region_place_injective (lawful : files.Lawful place) {left right : PathBuf} {leftName rightName : String}
    (leftNamed : PathBuf.fileName left = some leftName) (rightNamed : PathBuf.fileName right = some rightName)
    {i j : Nat} (same : place (regionPath left i) = place (regionPath right j)) :
    place (PathBuf.parent left) = place (PathBuf.parent right) ∧
      PathBuf.stem leftName = PathBuf.stem rightName ∧ i = j := by
  rw [region_path_eq leftNamed, region_path_eq rightNamed] at same
  obtain ⟨parents, names⟩ := lawful.apart _ _ _ _ (region_name_is_name (PathBuf.is_name_of_file_name leftNamed) i)
    (region_name_is_name (PathBuf.is_name_of_file_name rightNamed) j) same
  exact ⟨parents, region_name_injective names⟩

theorem write_file_after (path : PathBuf) (slice : List Byte) (state : State) :
    (writeFile files path slice state).2 = (files.write state path slice).2 := by
  unfold writeFile
  rcases files.write state path slice with ⟨_ | _, next⟩ <;> rfl

theorem write_file_returned {path : PathBuf} {slice : List Byte} {state : State}
    (returned : (writeFile files path slice state).1 = .ok ()) : (files.write state path slice).1 = .ok () := by
  unfold writeFile at returned
  rcases written : files.write state path slice with ⟨_ | _, next⟩
  · rw [written] at returned
    cases returned
  · rfl

theorem unpack_eq {inputFile : PathBuf} {state : State} {bytes : List Byte} {crashlog : CrashLog}
    (read : files.read state inputFile = .ok bytes) (parsed : CrashLog.fromSlice bytes = .ok crashlog) :
    unpackCrashlog files inputFile state =
      Attempt.forEach (fun (region, i) => writeFile files (regionPath inputFile i) region.toBytes)
        crashlog.regions.zipIdx state := by
  simp only [unpackCrashlog, read, parsed]

theorem unpack_writes (lawful : files.Lawful place) {inputFile : PathBuf} {state : State} {bytes : List Byte}
    {crashlog : CrashLog} (read : files.read state inputFile = .ok bytes)
    (parsed : CrashLog.fromSlice bytes = .ok crashlog)
    (returned : (unpackCrashlog files inputFile state).1 = .ok ()) {i : Nat} {region : Region}
    (listed : crashlog.regions[i]? = some region) :
    files.read (unpackCrashlog files inputFile state).2 (regionPath inputFile i) = .ok region.toBytes := by
  obtain ⟨name, named⟩ := Option.isSome_iff_exists.mp (lawful.named _ _ _ read)
  rw [unpack_eq read parsed] at returned ⊢
  refine Attempt.for_each_brings (P := fun next => files.read next (regionPath inputFile i) = .ok region.toBytes)
    (List.mk_mem_zipIdx_iff_getElem?.mpr listed) ?_ ?_ returned
  · intro next done
    rw [write_file_after]
    exact lawful.wrote _ _ _ (write_file_returned done)
  · rintro ⟨other, j⟩ member next done kept
    rw [write_file_after]
    by_cases same : place (regionPath inputFile i) = place (regionPath inputFile j)
    · obtain ⟨_, _, rfl⟩ := region_place_injective lawful named named same
      have again := List.mk_mem_zipIdx_iff_getElem?.mp member
      rw [listed, Option.some_inj] at again
      rw [again]
      exact lawful.wrote _ _ _ (write_file_returned done)
    · rw [lawful.others _ _ _ _ same, kept]

end Unpack

/-! ## Plain files -/

/-- Files in directories without links: a path leads where its components do. -/
def plainFiles : Files (List String → Option (List Byte)) where
  read state path :=
    match (PathBuf.fileName path).bind fun _ => state (PathBuf.follow [] path) with
    | some bytes => .ok bytes
    | none => .error "No such file or directory"
  write state path bytes :=
    if (PathBuf.fileName path).isSome then (.ok (), Function.update state (PathBuf.follow [] path) (some bytes))
    else (.error "Is a directory", state)

theorem PathBuf.follow_push_name {name : String} (isName : IsName name) (base : PathBuf) :
    follow [] (push base name) = follow [] base ++ [name] := by
  have root : name ≠ "/" := by
    rintro rfl
    exact isName.whole (List.mem_singleton.mpr rfl)
  rw [follow_push, follow_name isName.whole, if_neg isName.nonempty, step, if_neg root, if_neg isName.here,
    if_neg isName.above]

theorem PathBuf.follow_parent {path : PathBuf} {name : String} (named : fileName path = some name) :
    follow [] (push (parent path) name) = follow [] path := by
  rw [fileName, Option.filter_eq_some_iff] at named
  have whole : (components path).dropLast ++ [name] = components path := List.dropLast_append_getLast? name named.1
  calc follow [] (push (parent path) name)
      = follow [] (collect ((components path).dropLast ++ [name])) := by
        rw [follow_push, parent, follow_collect, follow_collect, List.foldl_append, List.foldl_cons, List.foldl_nil]
    _ = follow [] path := by rw [whole, collect, follow_extend_components, follow_empty]

theorem plain_read_file {state : List String → Option (List Byte)} {path : PathBuf}
    (isNamed : (PathBuf.fileName path).isSome) {bytes : List Byte}
    (stored : state (PathBuf.follow [] path) = some bytes) : plainFiles.read state path = .ok bytes := by
  obtain ⟨name, named⟩ := Option.isSome_iff_exists.mp isNamed
  simp only [plainFiles, named, Option.bind_some, stored]

theorem plain_write_file_eq {path : PathBuf} (isNamed : (PathBuf.fileName path).isSome)
    (state : List String → Option (List Byte)) (bytes : List Byte) :
    plainFiles.write state path bytes = (.ok (), Function.update state (PathBuf.follow [] path) (some bytes)) :=
  if_pos isNamed

theorem plain_files_lawful : plainFiles.Lawful (PathBuf.follow []) where
  wrote state path bytes returned := by
    by_cases isNamed : (PathBuf.fileName path).isSome
    · rw [plain_write_file_eq isNamed]
      exact plain_read_file isNamed (Function.update_self _ _ _)
    · simp only [plainFiles, if_neg isNamed] at returned
      cases returned
  others state path bytes other apart := by
    by_cases isNamed : (PathBuf.fileName path).isSome
    · rw [plain_write_file_eq isNamed]
      simp only [plainFiles, Function.update_of_ne apart]
    · simp only [plainFiles, if_neg isNamed]
  named state path bytes read := by
    cases named : PathBuf.fileName path with
    | none => simp [plainFiles, named] at read
    | some name => rfl
  reached _ _ := PathBuf.follow_parent
  apart path other first second firstName secondName same := by
    rw [PathBuf.follow_push_name firstName, PathBuf.follow_push_name secondName] at same
    exact List.append_singleton_inj.mp same

end Crashlog
