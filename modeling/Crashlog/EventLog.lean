import Crashlog.Export
import Mathlib.Data.List.Forall2

/-!
# Windows event logs

Each event of the log carries a Crash Log in the bytes of its `RawData`. The
Crash Log that was read gets new metadata with the time and the computer of
the event, and with it loses the extra sections of its CPER record. Its regions
are encoded anew when it is exported, so that nothing of the record is lost
exactly when every section of it is a Crash Log in the encoding of an export.
-/

namespace Crashlog

open Bytes

structure SystemTime where
  year : UInt16
  month : UInt16
  day : UInt16
  hour : UInt16
  minute : UInt16
  deriving DecidableEq, Repr

/-- The values rendered for an event; the computer name is none if it is not
valid text. -/
structure EvtValues where
  binary : List Byte
  filetime : UInt64
  computer : Option String
  deriving DecidableEq, Repr

/-- The conversion of file times, given as their high and low dwords. -/
class WindowsTime where
  fileTimeToSystemTime : UInt32 → UInt32 → Except String SystemTime

/-- What the operating system answers for each event: an error, no values, or
the values. -/
abbrev Event := Except String (Option EvtValues)

namespace EventLog

variable [windows : WindowsTime]

def metadataFromEvtValues (filetime : UInt64) (computer : Option String) : Except String Metadata := do
  let time ← windows.fileTimeToSystemTime (filetime >>> 32).toUInt32 (filetime &&& 0xFFFFFFFF).toUInt32
  .ok {
    time := some {
      year := time.year
      month := time.month.toUInt8
      day := time.day.toUInt8
      hour := time.hour.toUInt8
      minute := time.minute.toUInt8 }
    computer }

/-- The loop over the events. -/
def queryLoop : List Event → List CrashLog → Except String (List CrashLog)
  | [], crashlogs => .ok crashlogs
  | .error error :: _, _ => .error error
  | .ok none :: rest, crashlogs => queryLoop rest crashlogs
  | .ok (some values) :: rest, crashlogs =>
      match CrashLog.fromSlice values.binary with
      | .error _ => queryLoop rest crashlogs
      | .ok crashlog =>
          match metadataFromEvtValues values.filetime values.computer with
          | .error error => .error error
          | .ok metadata => queryLoop rest (crashlogs ++ [{ crashlog with metadata }])

def queryCrashlogs (events : List Event) : Except String (List CrashLog) := queryLoop events []

/-! ## The contract -/

omit windows in
/-- The event whose bytes are a Crash Log, with that Crash Log. -/
def accepted : Event → Option (EvtValues × CrashLog)
  | .ok (some values) => (CrashLog.fromSlice values.binary).toOption.map (values, ·)
  | _ => none

end EventLog

/-! ## The sections of the record -/

/-- The type and the bytes of a section, which need not be readable. -/
def Cper.sectionBytes (bytes : List Byte) (i : Nat) : Option (Guid × List Byte) := do
  let descriptor ← (sliceFrom bytes (RECORD_HEADER_SIZE + i * SECTION_DESCRIPTOR_SIZE)).bind
    CperSectionDescriptor.fromSlice
  let offset := descriptor.sectionOffset.toNat
  let body ← slice bytes offset (offset + descriptor.sectionLength.toNat)
  some (descriptor.sectionType, body)

/-- The sections of the CPER record in the bytes, if they are one. -/
def cperSections (binary : List Byte) : List (Guid × List Byte) :=
  match Berr.fromBertFile binary with
  | some _ => []
  | none =>
      match (slice binary 0 RECORD_HEADER_SIZE).bind CperHeader.fromSlice with
      | some recordHeader => (List.range recordHeader.sectionCount.toNat).filterMap (Cper.sectionBytes binary)
      | none => []

namespace CperSection

/-- The type and the bytes a section is written with. -/
def written (self : CperSection) : Guid × List Byte := (self.descriptor.sectionType, self.bodyBytes)

end CperSection

namespace EventLog

variable [windows : WindowsTime]

omit windows in
/-- Every section of the CPER record is a Crash Log, and has the bytes that a
region of the event is encoded with: a Firmware Error Record of the type 2, the
revision 2 and the identifier 0, the records of the region and no more. -/
structure OnlyCrashLogs (event : EvtValues × CrashLog) : Prop where
  regions : ∀ body ∈ cperBodies event.1.binary, (Region.fromCperSection body).isSome
  encoded : ∀ item ∈ cperSections event.1.binary,
    ∃ region ∈ event.2.regions, (Cper.regionSection region).written = item

omit windows in
instance (event : EvtValues × CrashLog) : Decidable (OnlyCrashLogs event) :=
  decidable_of_iff
    ((∀ body ∈ cperBodies event.1.binary, (Region.fromCperSection body).isSome) ∧
      ∀ item ∈ cperSections event.1.binary,
        ∃ region ∈ event.2.regions, (Cper.regionSection region).written = item)
    ⟨fun holds => ⟨holds.1, holds.2⟩, fun only => ⟨only.regions, only.encoded⟩⟩

end EventLog

/-- The bodies of the import are the sections whose bytes can be read. -/
theorem cper_bodies_eq (binary : List Byte) :
    cperBodies binary =
      (cperSections binary).filterMap fun item => CperSectionBody.fromSlice item.1 item.2 := by
  have sections (i : Nat) : (Cper.readSection binary i).map CperSection.body =
      (Cper.sectionBytes binary i).bind fun item => CperSectionBody.fromSlice item.1 item.2 := by
    simp only [Cper.readSection, Cper.sectionBytes, Option.bind_eq_bind]
    cases (sliceFrom binary (RECORD_HEADER_SIZE + i * SECTION_DESCRIPTOR_SIZE)).bind
        CperSectionDescriptor.fromSlice with
    | none => rfl
    | some descriptor =>
        simp only [Option.bind_some]
        cases slice binary descriptor.sectionOffset.toNat
            (descriptor.sectionOffset.toNat + descriptor.sectionLength.toNat) with
        | none => rfl
        | some body =>
            simp only [Option.bind_some]
            cases CperSectionBody.fromSlice descriptor.sectionType body <;> rfl
  rw [cperBodies, cperSections]
  cases Berr.fromBertFile binary with
  | some berr => rfl
  | none =>
      simp only [Cper.fromSlice, Option.bind_eq_bind]
      cases (slice binary 0 RECORD_HEADER_SIZE).bind CperHeader.fromSlice with
      | none => rfl
      | some recordHeader =>
          simp only [Option.bind_some, Option.map_some, Option.getD_some, Cper.bodies_normalize]
          rw [Cper.bodies, List.map_filterMap, List.filterMap_filterMap]
          exact List.filterMap_congr fun i _ => sections i

/-! ## The extra sections of an import -/

namespace CrashLog

/-- A body of the record that is a Crash Log is a stored region. -/
theorem stored_of_cper_body {binary : List Byte} {body : CperSectionBody} {region : Region}
    (member : body ∈ cperBodies binary) (found : Region.fromCperSection body = some region) :
    region ∈ storedRegions binary := by
  obtain ⟨bert, cper, read, inside⟩ := mem_cper_bodies.mp member
  rw [storedRegions, bert]
  simp only [read]
  exact List.mem_filterMap.mpr ⟨body, inside, found⟩

end CrashLog

/-! ## The loop -/

namespace EventLog

variable [windows : WindowsTime] {events : List Event}

omit windows in
/-- A record whose sections are all Crash Logs that are their own encoding is
kept. -/
theorem OnlyCrashLogs.of_own_encodings {event : EvtValues × CrashLog}
    (read : CrashLog.fromSlice event.1.binary = .ok event.2)
    (own : ∀ item ∈ cperSections event.1.binary, ∃ body region,
      CperSectionBody.fromSlice item.1 item.2 = some body ∧ Region.fromCperSection body = some region ∧
        (Cper.regionSection region).written = item) :
    OnlyCrashLogs event := by
  constructor
  · intro body member
    rw [cper_bodies_eq] at member
    obtain ⟨item, listed, parsed⟩ := List.mem_filterMap.mp member
    obtain ⟨other, region, again, found, _⟩ := own item listed
    rw [parsed] at again
    cases again
    simp [found]
  · intro item listed
    obtain ⟨body, region, parsed, found, encoded⟩ := own item listed
    have member : body ∈ cperBodies event.1.binary := by
      rw [cper_bodies_eq]
      exact List.mem_filterMap.mpr ⟨item, listed, parsed⟩
    obtain ⟨_, expanded⟩ := CrashLog.from_slice_regions_iff.mp ⟨event.2, read, rfl⟩
    refine ⟨region, ?_, encoded⟩
    rw [← expanded]
    exact boxExpansion.mem_run_of_mem (CrashLog.stored_of_cper_body member found)

/-- The start of file times. -/
@[reducible] def epoch : WindowsTime where
  fileTimeToSystemTime high low :=
    if high = 0 ∧ low = 0 then .ok { year := 1601, month := 1, day := 1, hour := 0, minute := 0 }
    else .error "The parameter is incorrect."

end EventLog

end Crashlog
