import Crashlog.Checked
import Crashlog.Node

/-!
# Buffers of C callers

A C caller hands over a pointer and a size. The name of a node is cut to the
size of the buffer, and an export is read piece by piece. Reading respects
every size. Writing a name reserves the nul first, which no size of zero has
room for: a query for the size of a name panics.
-/

namespace Crashlog

open Bytes

/-- Whether integer arithmetic is checked. -/
inductive Build where
  | debug
  | release
  deriving DecidableEq, Repr

/-- A difference of sizes; without checks it wraps around. -/
def Build.sub : Build → Nat → Nat → Checked Nat
  | .debug, value, less => Checked.sub value less
  | .release, value, less => .ok (if less ≤ value then value - less else value + 2 ^ 64 - less)

/-- The bytes of a C string, without the nul behind them. -/
structure CString where
  bytes : List Byte
  whole : 0 ∉ bytes

def CString.new (bytes : List Byte) : Option CString :=
  if whole : 0 ∉ bytes then some ⟨bytes, whole⟩ else none

/-- The memory from a pointer on, where a caller owns so many bytes. -/
structure Buffer where
  memory : List Byte
  size : Nat
  region : size ≤ memory.length
  usize : size < 2 ^ 64

namespace Buffer

/-- The slice that is made of the pointer and the size. -/
def bytes (buffer : Buffer) : List Byte := buffer.memory.take buffer.size

/-- The memory after a write to the slice. -/
def withBytes (buffer : Buffer) (bytes : List Byte) : List Byte := bytes ++ buffer.memory.drop buffer.size

theorem bytes_length (buffer : Buffer) : buffer.bytes.length = buffer.size := by
  rw [bytes, List.length_take, min_eq_left buffer.region]

/-- Behind what was written at its front the memory is the same. -/
theorem with_front (buffer : Buffer) {front : List Byte} (fits : front.length ≤ buffer.size) :
    buffer.withBytes (front ++ buffer.bytes.drop front.length) =
      front ++ buffer.memory.drop front.length := by
  have behind : buffer.memory.drop buffer.size = (buffer.memory.drop front.length).drop (buffer.size - front.length) := by
    rw [List.drop_drop, Nat.add_sub_cancel' fits]
  rw [withBytes, bytes, List.drop_take, behind, List.append_assoc, List.take_append_drop]

end Buffer

namespace Checked

/-- `buffer[..stop].copy_from_slice(&source[..stop])`. -/
def copyFront (buffer source : List Byte) (stop : Nat) : Checked (List Byte) := do
  let _ ← range buffer 0 stop
  let copied ← range source 0 stop
  .ok (copied ++ buffer.drop stop)

/-- `buffer[position] = byte`. -/
def store (buffer : List Byte) (position : Nat) (byte : Byte) : Checked (List Byte) := do
  require (position < buffer.length) .outOfRange
  .ok (buffer.set position byte)

end Checked

def crashlogGetNodeName (build : Build) (node : Option Node) (buffer : Buffer) : Checked (Nat × List Byte) :=
  match node with
  | none => .ok (0, buffer.memory)
  | some node =>
      match CString.new node.name.toUTF8.data.toList with
      | none => .ok (0, buffer.memory)
      | some name => do
          let src := name.bytes
          let limit ← build.sub buffer.size 1
          let stop := min src.length limit
          let written ← Checked.copyFront buffer.bytes src stop
          let written ← Checked.store written stop 0
          .ok (src.length + 1, buffer.withBytes written)

structure CrashLogExport where
  data : List Byte
  deriving DecidableEq, Repr

/-- The loop over the rest of the buffer, from position `i` on. -/
def CrashLogExport.fill (bufferSize : Nat) : Nat → List Byte → List Byte → Checked (Nat × List Byte × List Byte)
  | _, [], data => .ok (bufferSize, data, [])
  | i, dst :: rest, [] => .ok (i, [], dst :: rest)
  | i, _ :: rest, byte :: data => do
      Checked.fits 64 (i + 1)
      let (count, data, rest) ← fill bufferSize (i + 1) rest data
      .ok (count, data, byte :: rest)

def crashlogReadExport (pointer : Option CrashLogExport) (buffer : Buffer) :
    Checked (Nat × Option CrashLogExport × List Byte) :=
  match pointer with
  | none => .ok (0, none, buffer.memory)
  | some content => do
      let (count, data, bytes) ← CrashLogExport.fill buffer.size 0 buffer.bytes content.data
      .ok (count, some { data }, buffer.withBytes bytes)

/-- The chunks that successive reads return, and the export behind them. -/
def readChunks : Option CrashLogExport → List Buffer → Checked (List (List Byte) × Option CrashLogExport)
  | pointer, [] => .ok ([], pointer)
  | pointer, buffer :: rest => do
      let (count, pointer, memory) ← crashlogReadExport pointer buffer
      let (chunks, pointer) ← readChunks pointer rest
      .ok (memory.take count :: chunks, pointer)

/-! ## Names -/

/-- The longest prefix of a text that a buffer has room for together with a
nul. -/
structure LongestFitting (size : Nat) (text shown : List Byte) : Prop where
  isPrefix : shown <+: text
  fits : shown.length < size
  longest : ∀ other, other <+: text → other.length < size → other.length ≤ shown.length

theorem longest_fitting_take {size : Nat} (positive : 0 < size) (text : List Byte) :
    LongestFitting size text (text.take (size - 1)) where
  isPrefix := List.take_prefix _ _
  fits := by
    rw [List.length_take]
    omega
  longest other inside fits := by
    have shorter := inside.length_le
    rw [List.length_take]
    omega

theorem CString.new_of_whole {bytes : List Byte} (whole : 0 ∉ bytes) : CString.new bytes = some ⟨bytes, whole⟩ :=
  dif_pos whole

theorem Build.sub_one {build : Build} {size : Nat} (positive : 0 < size) : build.sub size 1 = .ok (size - 1) := by
  cases build with
  | debug =>
      rw [Build.sub, Checked.sub, Checked.require, if_pos (by omega)]
      rfl
  | release => rw [Build.sub, if_pos (by omega)]

theorem Checked.copy_front_eq {buffer source : List Byte} {stop : Nat} (room : stop ≤ buffer.length)
    (inside : stop ≤ source.length) :
    Checked.copyFront buffer source stop = .ok (source.take stop ++ buffer.drop stop) := by
  have front (items : List Byte) (ends : stop ≤ items.length) : Checked.range items 0 stop = .ok (items.take stop) := by
    rw [Checked.range, slice, if_pos ⟨Nat.zero_le _, ends⟩]
    rfl
  rw [Checked.copyFront, front buffer room, front source inside]
  rfl

theorem Checked.copy_front_nil {source : List Byte} {stop : Nat} (positive : 0 < stop) :
    Checked.copyFront [] source stop = .error .outOfRange := by
  have outside : slice ([] : List Byte) 0 stop = none := by
    rw [slice, if_neg]
    rintro ⟨_, ends⟩
    exact absurd ends (Nat.not_le.mpr positive)
  rw [Checked.copyFront, Checked.range, outside]
  rfl

theorem Checked.store_behind {front buffer : List Byte} {byte : Byte} (room : front.length < buffer.length) :
    Checked.store (front ++ buffer.drop front.length) front.length byte =
      .ok (front ++ [byte] ++ buffer.drop (front.length + 1)) := by
  have behind : buffer.drop front.length = buffer[front.length] :: buffer.drop (front.length + 1) :=
    List.drop_eq_getElem_cons room
  have inside : front.length < (front ++ buffer.drop front.length).length := by
    rw [List.length_append, List.length_drop]
    omega
  rw [Checked.store, Checked.require, if_pos inside, behind, List.set_append_right _ _ le_rfl, Nat.sub_self,
    List.set_cons_zero, List.append_assoc]
  rfl

section Name

variable {build : Build} {node : Node} {buffer : Buffer} (whole : 0 ∉ node.name.toUTF8.data.toList)
include whole

/-- A buffer with room for the nul shows the front of the name. -/
theorem get_node_name_eq (positive : 0 < buffer.size) :
    let name := node.name.toUTF8.data.toList
    let written := name.take (buffer.size - 1) ++ [0]
    crashlogGetNodeName build (some node) buffer =
      .ok (name.length + 1, written ++ buffer.memory.drop written.length) := by
  intro name written
  have shown : (name.take (buffer.size - 1)).length = min name.length (buffer.size - 1) := by
    rw [List.length_take, Nat.min_comm]
  have cut : name.take (min name.length (buffer.size - 1)) = name.take (buffer.size - 1) := by
    rw [Nat.min_comm, ← List.take_eq_take_min]
  have size := buffer.bytes_length
  have fits : written.length ≤ buffer.size := by
    rw [List.length_append, shown, List.length_singleton]
    omega
  have copied : Checked.copyFront buffer.bytes name (min name.length (buffer.size - 1)) =
      .ok (name.take (buffer.size - 1) ++ buffer.bytes.drop (name.take (buffer.size - 1)).length) := by
    rw [Checked.copy_front_eq (by omega) (by omega), cut, shown]
  have stored : Checked.store (name.take (buffer.size - 1) ++ buffer.bytes.drop (name.take (buffer.size - 1)).length)
      (min name.length (buffer.size - 1)) 0 = .ok (written ++ buffer.bytes.drop written.length) := by
    rw [← shown, Checked.store_behind (by omega), List.length_append, List.length_singleton]
  simp only [crashlogGetNodeName, CString.new_of_whole whole, Build.sub_one positive]
  change Checked.copyFront buffer.bytes name _ >>= _ = _
  rw [copied]
  change Checked.store _ _ 0 >>= _ = _
  rw [stored, ← buffer.with_front fits]
  rfl

/-- No build returns from a query with an empty buffer. -/
theorem get_node_name_empty (empty : buffer.size = 0) :
    crashlogGetNodeName build (some node) buffer =
      match build with
      | .debug => .error .overflow
      | .release => .error .outOfRange := by
  have nothing : buffer.bytes = [] := by rw [Buffer.bytes, empty, List.take_zero]
  simp only [crashlogGetNodeName, CString.new_of_whole whole, empty, nothing]
  cases build with
  | debug => rfl
  | release =>
      cases node.name.toUTF8.data.toList with
      | nil => rfl
      | cons first rest =>
          have limit : Build.release.sub 0 1 = .ok (2 ^ 64 - 1) := rfl
          have stop : 0 < min (first :: rest).length (2 ^ 64 - 1) := by
            rw [List.length_cons]
            omega
          rw [limit]
          change Checked.copyFront [] _ _ >>= _ = _
          rw [Checked.copy_front_nil stop]
          rfl

end Name

/-! ## Exports -/

/-- The loop writes what the buffer has room for. -/
theorem CrashLogExport.fill_eq {bufferSize i : Nat} {buffer data : List Byte} (sizes : i + buffer.length = bufferSize)
    (usize : bufferSize < 2 ^ 64) :
    fill bufferSize i buffer data =
      .ok (i + min data.length buffer.length, data.drop buffer.length,
        data.take buffer.length ++ buffer.drop data.length) := by
  induction buffer generalizing i data with
  | nil =>
      rw [fill]
      simp [← sizes]
  | cons dst rest ih =>
      rw [List.length_cons] at sizes
      cases data with
      | nil => simp [fill]
      | cons byte data =>
          rw [fill, Checked.fits, Checked.require, if_pos (by omega), ih (by omega)]
          have count : i + 1 + min data.length rest.length = i + min (data.length + 1) (rest.length + 1) := by omega
          rw [List.length_cons, List.length_cons, List.drop_succ_cons, List.drop_succ_cons, List.take_succ_cons,
            ← count]
          rfl

theorem read_export_eq (content : CrashLogExport) (buffer : Buffer) :
    let written := content.data.take buffer.size
    crashlogReadExport (some content) buffer =
      .ok (written.length, some { data := content.data.drop buffer.size },
        written ++ buffer.memory.drop written.length) := by
  intro written
  have size := buffer.bytes_length
  have count : written.length = min content.data.length buffer.bytes.length := by
    rw [List.length_take, size, Nat.min_comm]
  have behind : buffer.bytes.drop content.data.length = buffer.bytes.drop written.length := by
    rw [count]
    by_cases shorter : content.data.length ≤ buffer.bytes.length
    · rw [min_eq_left shorter]
    · rw [min_eq_right (by omega), List.drop_length, List.drop_eq_nil_of_le (by omega)]
  have filled : CrashLogExport.fill buffer.bytes.length 0 buffer.bytes content.data = _ :=
    CrashLogExport.fill_eq (Nat.zero_add _) (size ▸ buffer.usize)
  rw [Nat.zero_add, ← count, size, behind] at filled
  have fits : written.length ≤ buffer.size := by omega
  have memory := buffer.with_front fits
  simp only [crashlogReadExport]
  rw [filled, ← memory]
  rfl

theorem read_chunks_cons (data : List Byte) (buffer : Buffer) (rest : List Buffer) :
    readChunks (some { data }) (buffer :: rest) =
      (readChunks (some { data := data.drop buffer.size }) rest).map
        fun (chunks, pointer) => (data.take buffer.size :: chunks, pointer) := by
  rw [readChunks, read_export_eq]
  change ((readChunks _ rest) >>= fun found => _) = _
  rw [List.take_left]
  cases readChunks (some { data := data.drop buffer.size }) rest <;> rfl

/-- The content comes in chunks, one for each read, and after them comes
nothing. -/
def ReadInChunks (content : List Byte) (buffers : Nat → Buffer) : Prop :=
  ∃ chunks : List (List Byte), chunks.flatten = content ∧ [] ∉ chunks ∧
    ∀ count, readChunks (some { data := content }) ((List.range count).map buffers) =
      .ok ((List.range count).map fun read => chunks.getD read [], some { data := (chunks.drop count).flatten })

theorem read_chunks_end (buffers : List Buffer) :
    readChunks (some { data := [] }) buffers = .ok (buffers.map fun _ => [], some { data := [] }) := by
  induction buffers with
  | nil => rfl
  | cons buffer rest ih =>
      rw [read_chunks_cons, List.drop_nil, List.take_nil, ih]
      rfl

/-- The first read takes the front of the content, the reads after it what is
left. -/
theorem read_in_chunks_step {content : List Byte} {buffers : Nat → Buffer} (more : content ≠ [])
    (positive : 0 < (buffers 0).size)
    (later : ReadInChunks (content.drop (buffers 0).size) fun read => buffers (read + 1)) :
    ReadInChunks content buffers := by
  obtain ⟨chunks, whole, filled, reads⟩ := later
  refine ⟨content.take (buffers 0).size :: chunks, ?_, ?_, ?_⟩
  · rw [List.flatten_cons, whole, List.take_append_drop]
  · rw [List.mem_cons, not_or]
    refine ⟨?_, filled⟩
    rw [eq_comm, List.take_eq_nil_iff, not_or]
    exact ⟨by omega, more⟩
  · intro count
    cases count with
    | zero => simp [readChunks, whole]
    | succ count =>
        rw [List.range_succ_eq_map, List.map_cons, List.map_map, read_chunks_cons]
        have rest := reads count
        rw [show (List.range count).map (fun read => buffers (read + 1)) =
          (List.range count).map (buffers ∘ Nat.succ) from rfl] at rest
        rw [rest, List.map_cons, List.map_map]
        rfl

theorem read_in_chunks (content : List Byte) (buffers : Nat → Buffer) (positive : ∀ read, 0 < (buffers read).size) :
    ReadInChunks content buffers := by
  induction size : content.length using Nat.strongRecOn generalizing content buffers with
  | ind total ih =>
      by_cases finished : content = []
      · subst finished
        refine ⟨[], rfl, List.not_mem_nil, fun count => ?_⟩
        rw [read_chunks_end, List.map_map, List.drop_nil]
        rfl
      · have room := positive 0
        have bytes := List.length_pos_iff.mpr finished
        refine read_in_chunks_step finished room (ih (content.drop (buffers 0).size).length ?_ _ _ ?_ rfl)
        · rw [List.length_drop]
          omega
        · exact fun read => positive (read + 1)

/-! ## Both functions -/

/-- What C callers rely on. -/
structure BuffersRespected (build : Build) (node : Node) (content : List Byte) (buffer : Buffer) : Prop where
  nameWritten : ∃ written : List Byte, written.length ≤ buffer.size ∧
    crashlogGetNodeName build (some node) buffer =
      .ok (node.name.toUTF8.data.toList.length + 1, written ++ buffer.memory.drop written.length) ∧
    (0 < buffer.size → ∃ shown, LongestFitting buffer.size node.name.toUTF8.data.toList shown ∧ written = shown ++ [0])
  exportWritten : ∃ (written : List Byte) (rest : List Byte), written.length ≤ buffer.size ∧
    crashlogReadExport (some { data := content }) buffer =
      .ok (written.length, some { data := rest }, written ++ buffer.memory.drop written.length)
  exportRead : ∀ buffers : Nat → Buffer, (∀ read, 0 < (buffers read).size) → ReadInChunks content buffers

/-- A query for the size of a name is not answered. -/
theorem not_respected_of_empty {build : Build} {node : Node} {content : List Byte} {buffer : Buffer}
    (whole : 0 ∉ node.name.toUTF8.data.toList) (empty : buffer.size = 0) :
    ¬ BuffersRespected build node content buffer := by
  intro respected
  obtain ⟨written, _, returned, _⟩ := respected.nameWritten
  rw [get_node_name_empty whole empty] at returned
  cases build <;> cases returned

theorem buffers_respected_iff (build : Build) (node : Node) (content : List Byte) (buffer : Buffer)
    (whole : 0 ∉ node.name.toUTF8.data.toList) :
    BuffersRespected build node content buffer ↔ 0 < buffer.size := by
  constructor
  · intro respected
    by_contra empty
    exact not_respected_of_empty whole (by omega) respected
  · intro positive
    refine ⟨⟨_, ?_, get_node_name_eq whole positive, fun _ => ⟨_, longest_fitting_take positive _, rfl⟩⟩,
      ⟨_, _, ?_, read_export_eq { data := content } buffer⟩, read_in_chunks content⟩
    · rw [List.length_append, List.length_take, List.length_singleton]
      omega
    · rw [List.length_take]
      omega

def mcaNode : Node := { name := "mca", kind := .record }

/-- Four bytes of memory, three of which a caller hands over. -/
def shortBuffer : Buffer where
  memory := [0xaa, 0xaa, 0xaa, 0xaa]
  size := 3
  region := by decide
  usize := by decide

def emptyBuffer : Buffer where
  memory := [0xaa, 0xaa, 0xaa, 0xaa]
  size := 0
  region := by decide
  usize := by decide

example : crashlogGetNodeName .debug (some mcaNode) shortBuffer = .ok (4, [0x6d, 0x63, 0, 0xaa]) := by rfl

theorem short_buffer_respected : BuffersRespected .debug mcaNode [1, 2, 3, 4, 5] shortBuffer :=
  (buffers_respected_iff .debug mcaNode [1, 2, 3, 4, 5] shortBuffer (by decide)).mpr (by decide)

/-- Asked for the size of a name with an empty buffer, a debug build overflows
and a release build leaves the slice. -/
theorem empty_buffer_panics :
    ¬ BuffersRespected .debug mcaNode [] emptyBuffer ∧ ¬ BuffersRespected .release mcaNode [] emptyBuffer ∧
      crashlogGetNodeName .debug (some mcaNode) emptyBuffer = .error .overflow ∧
      crashlogGetNodeName .release (some mcaNode) emptyBuffer = .error .outOfRange := by
  have whole : 0 ∉ mcaNode.name.toUTF8.data.toList := by decide
  exact ⟨not_respected_of_empty whole rfl, not_respected_of_empty whole rfl, get_node_name_empty whole rfl,
    get_node_name_empty whole rfl⟩

end Crashlog
