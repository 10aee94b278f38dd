import Crashlog.Extraction

/-!
# The files of a run

All Crash Logs are extracted before the first is written, and each is written
to a path that does not exist: a run of the command changes no file that was
there, and writes no Crash Log over another. As a Crash Log has nothing but
regions, its file is read back into them.
-/

namespace Crashlog

open Bytes

/-! ## What is read back -/

/-- No record was cut, and the Crash Log fits the fields of a CPER record. -/
structure CrashLog.Exportable (crashlog : CrashLog) : Prop where
  complete : ∀ region ∈ crashlog.regions, ∀ record ∈ region.records, record.header.headerSize ≤ record.data.length
  counted : crashlog.regions.length < 2 ^ 16
  fits : crashlog.toBytes.length < 2 ^ 32
  regionsFit : ∀ region ∈ crashlog.regions, 32 + region.toBytes.length < 2 ^ 32

structure Storage (State : Type) extends Disk State where
  read : State → PathBuf → Except String (List Byte)

/-- Several paths may lead to one place. What is written to a path that did not
exist is a file there, and nothing changes at other places, whatever a write
returns. -/
structure Storage.Lawful {State : Type} (storage : Storage State) {Place : Type} (place : PathBuf → Place) : Prop where
  same : ∀ state path other, place path = place other → storage.kind state path = storage.kind state other
  wrote : ∀ state path bytes, storage.pathExists state path = false → (storage.write state path bytes).1 = .ok () →
    storage.kind (storage.write state path bytes).2 path = some .file ∧
      storage.read (storage.write state path bytes).2 path = .ok bytes
  others : ∀ state path bytes other, place other ≠ place path →
    storage.kind (storage.write state path bytes).2 other = storage.kind state other ∧
      storage.read (storage.write state path bytes).2 other = storage.read state other

namespace Storage

variable {State : Type} {storage : Storage State} {Place : Type} {place : PathBuf → Place}

/-- What is there stays as it is. -/
def Keeps (storage : Storage State) (state next : State) : Prop :=
  ∀ path, storage.pathExists state path = true →
    storage.kind next path = storage.kind state path ∧ storage.read next path = storage.read state path

theorem Keeps.exists {state next : State} (kept : storage.Keeps state next) {path : PathBuf}
    (there : storage.pathExists state path = true) : storage.pathExists next path = true := by
  rw [Disk.pathExists, (kept path there).1]
  exact there

theorem Keeps.trans {state next last : State} (first : storage.Keeps state next) (second : storage.Keeps next last) :
    storage.Keeps state last := by
  intro path there
  obtain ⟨kind, read⟩ := first path there
  obtain ⟨laterKind, laterRead⟩ := second path (first.exists there)
  exact ⟨laterKind.trans kind, laterRead.trans read⟩

end Storage

/-! ## One run of the command -/

namespace Extract

variable {State : Type} {storage : Storage State} {Place : Type} {place : PathBuf → Place} {outputPath : Option PathBuf}

/-- The file of a Crash Log, where one was written: it did not exist before the
run, and after it holds the export. -/
def Stored (storage : Storage State) (state last : State) (crashlog : CrashLog) (outcome : Outcome) : Prop :=
  ∀ path, outcome = .written path →
    storage.pathExists state path = false ∧ storage.pathExists last path = true ∧
      storage.read last path = .ok crashlog.toBytes

end Extract

/-! ## A disk of plain files -/

end Crashlog
