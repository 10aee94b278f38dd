import Crashlog.Bert
import Crashlog.EventLog
import Crashlog.Extract
import Crashlog.SourceNames

/-!
# Extraction

Crash Logs are extracted from the boot error record, from PMT devices and from
event logs. Whatever reports them, their regions were parsed and no other
sections come with them. A boot error region written from a Crash Log is
extracted as its regions, those in boxes once more.
-/

namespace Crashlog

open Bytes

inductive ExtractionError where
  | invalidBootErrorRecordRegion
  | unsupported
  | library (error : Error)
  deriving DecidableEq, Repr

/-- What is read from the platform: its files and the reason why one is not
read, the boot error record table with the physical memory and the clock, and
the two event logs. -/
structure Machine where
  platform : Platform
  sysfs : SysFs
  isNotFound : String → Bool
  bert : Option Bert
  memory : Nat → Byte
  time : Option Time
  kernelEvents : List Event
  systemEvents : List Event

namespace Bert

def rawBerrFromPhysMem (bert : Bert) (memory : Nat → Byte) : List Byte :=
  (List.range bert.regionLength.toNat).map fun i => memory (bert.region.toNat + i)

def berrFromPhysMem (bert : Bert) (memory : Nat → Byte) : Option Berr :=
  Berr.fromSlice (bert.rawBerrFromPhysMem memory)

end Bert

structure AcpiSysFs where
  root : PathBuf := "/"

namespace AcpiSysFs

def tablesPath (acpi : AcpiSysFs) : PathBuf := PathBuf.extend acpi.root ["sys", "firmware", "acpi", "tables"]

def berrPath (acpi : AcpiSysFs) : PathBuf := PathBuf.extend acpi.tablesPath ["data", "BERT"]

def extract (machine : Machine) (acpi : AcpiSysFs) : Except ExtractionError CrashLog :=
  match machine.sysfs.read acpi.berrPath with
  | .error message => .error (.library (if machine.isNotFound message then .noCrashLogFound else .ioError message))
  | .ok bytes =>
      match Berr.fromSlice bytes with
      | none => .error .invalidBootErrorRecordRegion
      | some berr => (CrashLog.fromBerr berr).mapError .library

end AcpiSysFs

def CrashLog.fromAcpiSysfs (machine : Machine) : Except ExtractionError CrashLog := AcpiSysFs.extract machine {}

namespace Efi

/-- The table is found in the system table, the record in physical memory. -/
def extractCrashlog (machine : Machine) : Except ExtractionError CrashLog :=
  match machine.bert with
  | none => .error (.library .noCrashLogFound)
  | some bert =>
      match bert.berrFromPhysMem machine.memory with
      | none => .error .invalidBootErrorRecordRegion
      | some berr =>
          ((CrashLog.fromBerr berr).mapError .library).map fun crashlog =>
            { crashlog with metadata := { computer := some "efi", time := machine.time } }

end Efi

/-- Why nothing was extracted is not passed on. -/
def Acpi.extract (machine : Machine) : Except ExtractionError CrashLog :=
  let extracted := match machine.platform with
    | .linux => (AcpiSysFs.extract machine {}).toOption
    | .uefi => (Efi.extractCrashlog machine).toOption
    | _ => none
  match extracted with
  | some crashlog => .ok crashlog
  | none => .error (.library .noCrashLogFound)

namespace PmtSysFs

/-- The loop over the endpoints of a device: empty ones are left out, and any
other failure ends it. -/
def extractEndpoints (sysfs : SysFs) : List PathBuf → List CrashLog → Except Error (List CrashLog)
  | [], crashlogs => .ok crashlogs
  | endpoint :: rest, crashlogs =>
      match extract sysfs endpoint with
      | .ok crashlog => extractEndpoints sysfs rest (crashlogs ++ [crashlog])
      | .error .emptyRegion => extractEndpoints sysfs rest crashlogs
      | .error error => .error error

end PmtSysFs

section Machine

variable [UnicodeTables] [WindowsTime] (machine : Machine)

omit [WindowsTime] in
def Pmt.extract (dev : PmtDeviceId) : Except ExtractionError (List CrashLog) :=
  match machine.platform with
  | .linux =>
      (PmtSysFs.extractEndpoints machine.sysfs (PmtSysFs.getEndpoints machine.sysfs {} dev) []).mapError .library
  | _ => .error .unsupported

namespace EventLog

omit [UnicodeTables] in
/-- The events of the kernel come before those of the system. -/
def extractCrashlogs : Except String (List CrashLog) := do
  let crashlogs ← queryCrashlogs machine.kernelEvents
  let systemCrashlogs ← queryCrashlogs machine.systemEvents
  .ok (crashlogs ++ systemCrashlogs)

omit [UnicodeTables] in
def extract : Except ExtractionError (List CrashLog) :=
  match machine.platform with
  | .windows => (extractCrashlogs machine).mapError fun _ => .library .noCrashLogFound
  | _ => .error (.library .noCrashLogFound)

end EventLog

omit [UnicodeTables] in
def CrashLog.fromWindowsEventLogs : Except ExtractionError (List CrashLog) :=
  (EventLog.extract machine).mapError fun _ => .library .internalError

namespace CrashLogSource

def extract (source : CrashLogSource) : Except ExtractionError (List CrashLog) :=
  let crashlogs := match source with
    | .acpi => (Acpi.extract machine).map fun crashlog => [crashlog]
    | .pmtDevice dev => Pmt.extract machine dev
    | .eventLog => EventLog.extract machine
  crashlogs.map fun crashlogs => crashlogs.map fun crashlog =>
    { crashlog with metadata := { crashlog.metadata with source := some source } }

end CrashLogSource

namespace App

/-- The Crash Logs that the command has found before it writes the first. -/
def result (sources : List CrashLogSource) : List CrashLog :=
  if sources.isEmpty then
    match machine.platform with
    | .windows => (CrashLog.fromWindowsEventLogs machine).toOption.getD []
    | .linux =>
        (CrashLog.fromAcpiSysfs machine).toOption.toList ++ (CrashLog.fromPmtSysfs machine.sysfs).toOption.toList
    | _ => []
  else sources.flatMap fun source => (CrashLogSource.extract machine source).toOption.getD []

end App

end Machine

namespace Extract

/-- The loop over the Crash Logs. -/
def saveAll {State : Type} (disk : Disk State) (fuel : Nat) (outputPath : Option PathBuf) :
    State → List CrashLog → Option (List Outcome × State)
  | state, [] => some ([], state)
  | state, crashlog :: rest =>
      (save disk fuel outputPath state crashlog).bind fun (outcome, next) =>
        (saveAll disk fuel outputPath next rest).map fun (outcomes, last) => (outcome :: outcomes, last)

end Extract

def App.extract [UnicodeTables] [WindowsTime] {State : Type} (disk : Disk State) (machine : Machine) (fuel : Nat)
    (outputPath : Option PathBuf) (sources : List CrashLogSource) (state : State) :
    Option (List Extract.Outcome × State) :=
  Extract.saveAll disk fuel outputPath state (result machine sources)

/-! ## What is extracted -/

namespace CrashLog

/-- A Crash Log of regions that were parsed, with no other sections. -/
structure Bare (crashlog : CrashLog) : Prop where
  filled : crashlog.regions ≠ []
  parsed : ∀ region ∈ crashlog.regions, region.Parsed
  alone : crashlog.metadata.extraCperSections = []

theorem Bare.of_regions {crashlog other : CrashLog} (bare : crashlog.Bare) (same : other.regions = crashlog.regions)
    (alone : other.metadata.extraCperSections = []) : other.Bare where
  filled := same ▸ bare.filled
  parsed := same ▸ bare.parsed
  alone := alone

theorem bare_from_regions {regions : List Region} {crashlog : CrashLog}
    (parsed : ∀ region ∈ regions, region.Parsed) (built : fromRegions regions = .ok crashlog) : crashlog.Bare := by
  rw [from_regions_eq] at built
  split_ifs at built with empty
  cases built
  refine ⟨fun drained => empty (run_eq_nil_iff.mp drained), ?_, rfl⟩
  exact boxExpansion.run_induction Region.Parsed parsed fun region _ child member =>
    .child (List.mem_reverse.mp member)

theorem parsed_of_cper_section {body : CperSectionBody} {region : Region}
    (found : Region.fromCperSection body = some region) : region.Parsed := by
  cases body with
  | unknown guid data => cases found
  | firmwareErrorRecord fer =>
      simp only [Region.fromCperSection] at found
      split_ifs at found
      exact .of_from_slice (except_to_option_eq_some.mp found)

theorem bare_from_berr {berr : Berr} {crashlog : CrashLog} (built : fromBerr berr = .ok crashlog) : crashlog.Bare := by
  refine bare_from_regions (fun region member => ?_) built
  obtain ⟨entry, _, found⟩ := List.mem_filterMap.mp member
  exact parsed_of_cper_section found

end CrashLog

section Bare

variable {machine : Machine}

theorem map_error_eq_ok {α ε ε' : Type} {f : ε → ε'} {result : Except ε α} {value : α} :
    result.mapError f = .ok value ↔ result = .ok value := by
  cases result <;> simp [Except.mapError]

theorem map_eq_ok {α β ε : Type} {f : α → β} {result : Except ε α} {value : β} :
    result.map f = .ok value ↔ ∃ found, result = .ok found ∧ f found = value := by
  cases result <;> simp [Except.map]

theorem acpi_sys_fs_bare {acpi : AcpiSysFs} {crashlog : CrashLog}
    (extracted : AcpiSysFs.extract machine acpi = .ok crashlog) : crashlog.Bare := by
  unfold AcpiSysFs.extract at extracted
  split at extracted
  · cases extracted
  · split at extracted
    · cases extracted
    · exact CrashLog.bare_from_berr (map_error_eq_ok.mp extracted)

theorem efi_bare {crashlog : CrashLog} (extracted : Efi.extractCrashlog machine = .ok crashlog) : crashlog.Bare := by
  unfold Efi.extractCrashlog at extracted
  split at extracted
  · cases extracted
  · split at extracted
    · cases extracted
    · obtain ⟨found, built, rfl⟩ := map_eq_ok.mp extracted
      exact (CrashLog.bare_from_berr (map_error_eq_ok.mp built)).of_regions rfl rfl

theorem acpi_bare {crashlog : CrashLog} (extracted : Acpi.extract machine = .ok crashlog) : crashlog.Bare := by
  unfold Acpi.extract at extracted
  cases platform : machine.platform with
  | linux =>
      simp only [platform] at extracted
      split at extracted
      · next found =>
          cases extracted
          exact acpi_sys_fs_bare (except_to_option_eq_some.mp found)
      · cases extracted
  | uefi =>
      simp only [platform] at extracted
      split at extracted
      · next found =>
          cases extracted
          exact efi_bare (except_to_option_eq_some.mp found)
      · cases extracted
  | windows | other =>
      simp only [platform] at extracted
      cases extracted

theorem endpoint_bare {sysfs : SysFs} {path : PathBuf} {crashlog : CrashLog}
    (extracted : PmtSysFs.extract sysfs path = .ok crashlog) : crashlog.Bare := by
  unfold PmtSysFs.extract at extracted
  split at extracted
  · cases extracted
  · obtain ⟨region, read, built⟩ := except_bind_eq_ok.mp extracted
    exact CrashLog.bare_from_regions (fun _ member => List.mem_singleton.mp member ▸ .of_from_slice read) built

variable [UnicodeTables] [WindowsTime]

end Bare

/-! ## What the firmware reports -/

/-- The bytes of a boot error region, as the platform holds them. -/
inductive Machine.Reports (machine : Machine) (bytes : List Byte) : Prop
  | sysfs (linux : machine.platform = .linux) (held : machine.sysfs.read (AcpiSysFs.berrPath {}) = .ok bytes)
  | memory (uefi : machine.platform = .uefi) (bert : Bert) (found : machine.bert = some bert)
      (held : bert.rawBerrFromPhysMem machine.memory = bytes)

theorem reported_regions {machine : Machine} {bytes : List Byte} (reports : machine.Reports bytes) {berr : Berr}
    (read : Berr.fromSlice bytes = some berr) {crashlog : CrashLog} (built : CrashLog.fromBerr berr = .ok crashlog) :
    ∃ extracted, Acpi.extract machine = .ok extracted ∧ extracted.regions = crashlog.regions := by
  cases reports with
  | sysfs linux held =>
      refine ⟨crashlog, ?_, rfl⟩
      simp only [Acpi.extract, AcpiSysFs.extract, linux, held, read, built, Except.mapError, Except.toOption]
  | memory uefi bert found held =>
      refine ⟨{ crashlog with metadata := { computer := some "efi", time := machine.time } }, ?_, rfl⟩
      simp only [Acpi.extract, Efi.extractCrashlog, Bert.berrFromPhysMem, uefi, found, held, read, built,
        Except.mapError, Except.map, Except.toOption]

namespace CrashLog

variable {crashlog : CrashLog}

/-- The regions that are found in the boot error region of a Crash Log. -/
theorem from_berr_written (bare : crashlog.Bare)
    (complete : ∀ region ∈ crashlog.regions, ∀ record ∈ region.records, record.header.headerSize ≤ record.data.length)
    (fits : crashlog.toBert.length < 2 ^ 32) :
    ∃ berr built, Berr.fromSlice (Berr.fromCrashlog crashlog).toBytes = some berr ∧ fromBerr berr = .ok built ∧
      built.regions = boxExpansion.run (crashlog.regions.map Region.strip) := by
  have encodable : ∀ entry ∈ (Berr.fromCrashlog crashlog).entries, entry.Encodable := by
    intro entry member
    obtain ⟨region, listed, rfl⟩ := List.mem_map.mp member
    exact Berr.region_entry_encodable (table_region_fits fits listed)
  have whole : (Berr.entriesToBytes (Berr.fromCrashlog crashlog).entries).length < 2 ^ 32 := by
    rw [toBert, Berr.to_bytes_eq] at fits
    simp only [List.length_append] at fits
    omega
  have reread : ∀ region ∈ crashlog.regions,
      Region.fromCperSection (Berr.regionEntry region).sized.cperSection = some region.strip := by
    intro region member
    change Region.fromCperSection (.firmwareErrorRecord (FirmwareErrorRecord.fromCrashlogRegion region)) = _
    simp only [Region.fromCperSection, FirmwareErrorRecord.fromCrashlogRegion, if_true]
    rw [(bare.parsed region member).reread (complete region member)]
    rfl
  have found : ((Berr.fromCrashlog crashlog).entries.map GenericErrorDataEntry.sized).filterMap
      (fun entry => Region.fromCperSection entry.cperSection) = crashlog.regions.map Region.strip := by
    rw [Berr.fromCrashlog, List.map_map, List.filterMap_map]
    simp only [Function.comp_def]
    rw [List.filterMap_congr reread, List.filterMap_eq_map']
  refine ⟨_, { regions := boxExpansion.run (crashlog.regions.map Region.strip) },
    Berr.from_slice_to_bytes _ encodable whole, ?_, rfl⟩
  rw [fromBerr, found, from_regions_eq, if_neg fun none => bare.filled (List.map_eq_nil_iff.mp none)]

theorem export_length (crashlog : CrashLog) :
    crashlog.toBytes.length =
      Cper.bodyStart crashlog.exportedSections.length + Cper.bodiesWidth crashlog.exportedSections := by
  have widths := raw_crashlog_map CperSection.width (fun _ _ => rfl) crashlog
  have sizes := congrArg List.length widths
  rw [List.length_map, List.length_map] at sizes
  rw [toBytes, Cper.to_bytes_length, Cper.totalLength, sizes, Cper.bodiesWidth, Cper.bodiesWidth, widths]

/-- Every region that is taken out of a box again makes the export longer. -/
theorem export_same_iff {extracted : CrashLog} (bare : crashlog.Bare) (again : extracted.Bare)
    (timed : extracted.metadata.time = crashlog.metadata.time)
    (regions : extracted.regions = boxExpansion.run (crashlog.regions.map Region.strip)) :
    extracted.toBytes = crashlog.toBytes ↔ ∀ region ∈ crashlog.regions, boxedRegions region = [] := by
  have boxless : (∀ region ∈ crashlog.regions.map Region.strip, boxExpansion.children region = []) ↔
      ∀ region ∈ crashlog.regions, boxedRegions region = [] := by
    simp [boxExpansion, Region.boxed_regions_strip]
  have strip_section (region : Region) : Cper.regionSection region.strip = Cper.regionSection region := by
    simp only [Cper.regionSection, CperSection.fromCrashlogRegion, FirmwareErrorRecord.fromCrashlogRegion,
      Region.strip_to_bytes]
  have plain : crashlog.exportedSections = (crashlog.regions.map Region.strip).map Cper.regionSection := by
    rw [exportedSections, bare.alone, List.map_nil, List.append_nil, List.map_map]
    exact List.map_congr_left fun region _ => (strip_section region).symm
  have drained : extracted.exportedSections =
      (boxExpansion.run (crashlog.regions.map Region.strip)).map Cper.regionSection := by
    rw [exportedSections, again.alone, List.map_nil, List.append_nil, regions]
  rw [← boxless]
  constructor
  · intro same
    have sizes := congrArg List.length same
    have more := (boxExpansion.run_perm (crashlog.regions.map Region.strip)).map fun region =>
      (Cper.regionSection region).width
    have widths := more.sum_eq
    have counts := more.length_eq
    rw [List.map_append, List.sum_append] at widths
    rw [List.map_append, List.length_append, List.length_map, List.length_map] at counts
    rw [export_length, export_length, plain, drained] at sizes
    simp only [Cper.bodyStart, Cper.bodiesWidth, List.map_map, List.length_map, Function.comp_def,
      SECTION_DESCRIPTOR_SIZE] at sizes widths counts
    exact (boxExpansion.run_length_eq_iff _).mp (by rw [List.length_map]; omega)
  · intro childless
    have sections : extracted.exportedSections = crashlog.exportedSections := by
      rw [plain, drained, boxExpansion.run_eq_self childless]
    rw [toBytes, toBytes, Cper.fromRawCrashlog, Cper.fromRawCrashlog]
    simp only [← List.foldl_append]
    rw [timed]
    exact congrArg (fun sections => Cper.toBytes (List.foldl Cper.appendSection _ sections)) sections

end CrashLog

/-- A boot error region that holds the regions of a Crash Log is extracted as
these regions, with those in boxes taken out once more, and is exported as the
Crash Log is exactly when there is none in a box. -/
theorem Acpi.extract_reported {crashlog : CrashLog} (bare : crashlog.Bare)
    (complete : ∀ region ∈ crashlog.regions, ∀ record ∈ region.records, record.header.headerSize ≤ record.data.length)
    (fits : crashlog.toBert.length < 2 ^ 32) {machine : Machine}
    (reports : machine.Reports (Berr.fromCrashlog crashlog).toBytes) :
    ∃ extracted, extract machine = .ok extracted ∧
      extracted.regions = boxExpansion.run (crashlog.regions.map Region.strip) ∧
      (extracted.metadata.time = crashlog.metadata.time →
        (extracted.toBytes = crashlog.toBytes ↔ ∀ region ∈ crashlog.regions, boxedRegions region = [])) := by
  obtain ⟨berr, built, read, parsed, regions⟩ := CrashLog.from_berr_written bare complete fits
  obtain ⟨extracted, returned, same⟩ := reported_regions reports read parsed
  refine ⟨extracted, returned, same.trans regions, fun timed => ?_⟩
  exact CrashLog.export_same_iff bare (acpi_bare returned) timed (same.trans regions)

def boxedBytes : List Byte := [0x08, 0xa1, 0x07, 0x3d, 4, 0, 0, 0] ++ PmtSysFs.machineCheckBytes

def boxHeader : Header where
  version := { revision := 8, headerType := 1, productId := 0x7a, recordType := RecordTypes.BOX }
  size := { recordSize := 4 }

def boxRegion : Region := ⟨[{ header := boxHeader, data := boxedBytes }]⟩

/-- The machine check record in the box, as it is taken out or found on its own. -/
def machineCheckRegion (parentHeader : Option Header) : Region :=
  ⟨[{ header := mcaHeader 2, data := PmtSysFs.machineCheckBytes, context := { parentHeader } }]⟩

def boxedCrashlog : CrashLog where
  regions := [boxRegion, machineCheckRegion (some boxHeader)]

theorem boxed_bare : boxedCrashlog.Bare where
  filled := List.cons_ne_nil _ _
  parsed := by
    rw [boxedCrashlog, List.forall_mem_cons, List.forall_mem_singleton]
    exact ⟨⟨boxedBytes, by decide +kernel⟩, ⟨PmtSysFs.machineCheckBytes, by decide +kernel⟩⟩
  alone := rfl

/-- The record is at the start of the physical memory. -/
def boxedMachine : Machine where
  platform := .uefi
  sysfs := { readDir := fun _ => none, isDir := fun _ => false, read := fun _ => .error "" }
  isNotFound _ := true
  bert := some { regionLength := UInt32.ofNat (Berr.fromCrashlog boxedCrashlog).toBytes.length }
  memory i := (Berr.fromCrashlog boxedCrashlog).toBytes.getD i 0
  time := none
  kernelEvents := []
  systemEvents := []

/-- The region is taken out of the box once more, and is exported twice. -/
theorem boxed_machine_check_reported :
    ∃ extracted, Acpi.extract boxedMachine = .ok extracted ∧
      extracted.regions = [boxRegion, machineCheckRegion (some boxHeader), machineCheckRegion none] ∧
        extracted.toBytes ≠ boxedCrashlog.toBytes := by
  obtain ⟨extracted, returned, regions, exported⟩ := Acpi.extract_reported boxed_bare (by decide +kernel)
    (by decide +kernel) (show boxedMachine.Reports _ from .memory rfl _ rfl (by decide +kernel))
  have untimed : ((Acpi.extract boxedMachine).toOption.map fun extracted => extracted.metadata.time) = some none := by
    decide +kernel
  rw [returned] at untimed
  have boxed : ¬ ∀ region ∈ boxedCrashlog.regions, boxedRegions region = [] := by decide +kernel
  refine ⟨extracted, returned, regions.trans (by decide +kernel), fun same => boxed ?_⟩
  exact (exported (Option.some.inj untimed)).mp same

/-- A Linux machine with one PMT device. -/
def singleMachine (name : String) : Machine where
  platform := .linux
  sysfs := PmtSysFs.singleSysFs name
  isNotFound _ := true
  bert := none
  memory _ := 0
  time := none
  kernelEvents := []
  systemEvents := []

end Crashlog
