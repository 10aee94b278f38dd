import Crashlog.PmtSysFs

/-!
# Reading the names of sources

The sources of Crash Logs are named in a text of three nested grammars that
share their delimiter: the kind of source, the endpoint or the PCI function,
and the fields of the PCI function. A source that can be discovered or named
is read back from its name.
-/

namespace Crashlog

def PmtDeviceId.fromStr [UnicodeTables] (s : String) : Option PmtDeviceId :=
  if Text.trimEndNumeric s = "crashlog" then some (.name s)
  else
    match PciBdf.fromStr s with
    | some address => some (.bdf address)
    | none => none

inductive ParseCrashLogSourceError where
  | invalidSource
  | invalidParameter
  deriving DecidableEq, Repr

/-- The platform that the library is built for. -/
inductive Platform where
  | linux
  | uefi
  | windows
  | other
  deriving DecidableEq, Repr

def Acpi.isAvailable (platform : Platform) : Bool := platform = .linux || platform = .uefi

def EventLog.isAvailable (platform : Platform) : Bool := platform = .windows

def Pmt.discover [UnicodeTables] (sysfs : SysFs) : Platform → List PmtDeviceId
  | .linux => PmtSysFs.discover sysfs {}
  | _ => []

namespace CrashLogSource

variable [UnicodeTables]

def fromStr (s : String) : Except ParseCrashLogSourceError CrashLogSource :=
  let (source, parameter) := (Text.splitOnce ':' s).getD (s, "")
  match source with
  | "acpi" => if parameter.isEmpty then .ok .acpi else .error .invalidParameter
  | "pmt" =>
      match PmtDeviceId.fromStr parameter with
      | some dev => .ok (.pmtDevice dev)
      | none => .error .invalidParameter
  | "evt" => if parameter.isEmpty then .ok .eventLog else .error .invalidParameter
  | _ => .error .invalidSource

/-- The sources that are available in the platform. -/
def discover (platform : Platform) (sysfs : SysFs) : List CrashLogSource :=
  (if Acpi.isAvailable platform then [acpi] else []) ++
    (if EventLog.isAvailable platform then [eventLog] else []) ++
      (Pmt.discover sysfs platform).map pmtDevice

/-- The sources that have a name of their own. -/
inductive Nameable : CrashLogSource → Prop
  | acpi : Nameable .acpi
  | eventLog : Nameable .eventLog
  | endpoint (digits : String) (numeric : Text.AllChars (fun c => UnicodeTables.isNumeric c = true) digits) :
      Nameable (.pmtDevice (.name ("crashlog" ++ digits)))
  | address (bdf : PciBdf) : Nameable (.pmtDevice (.bdf bdf))

end CrashLogSource

section Names

variable [UnicodeTables]

theorem PmtDeviceId.trim_end_numeric_crashlog : Text.trimEndNumeric "crashlog" = "crashlog" := by
  have last : UnicodeTables.isNumeric 'g' = false := UnicodeTables.is_numeric_ascii 'g' (by decide)
  have chars : "crashlog".toList = ['c', 'r', 'a', 's', 'h', 'l', 'o'] ++ ['g'] := rfl
  rw [Text.trimEndNumeric, chars, List.rdropWhile_concat_neg _ _ _ (by simp [last])]
  rfl

theorem PmtDeviceId.is_endpoint_iff {name : String} :
    Text.trimEndNumeric name = "crashlog" ↔
      ∃ digits, Text.AllChars (fun c => UnicodeTables.isNumeric c = true) digits ∧ name = "crashlog" ++ digits :=
  Text.trim_end_numeric_eq_iff trim_end_numeric_crashlog

/-- A PCI function is never taken for an endpoint: its name has a delimiter,
which is neither in the stem nor numeric. -/
theorem PciBdf.display_not_endpoint (bdf : PciBdf) : Text.trimEndNumeric bdf.display ≠ "crashlog" := by
  intro endpoint
  obtain ⟨digits, numeric, shown⟩ := PmtDeviceId.is_endpoint_iff.mp endpoint
  have delimiter : ':' ∈ bdf.display.toList := by simp [PciBdf.display]
  rw [shown, String.toList_append, List.mem_append] at delimiter
  rcases delimiter with stem | digit
  · exact absurd stem (by decide)
  · have other : UnicodeTables.isNumeric ':' = false := UnicodeTables.is_numeric_ascii ':' (by decide)
    rw [numeric ':' digit] at other
    exact absurd other (by decide)

namespace CrashLogSource

theorem from_str_pmt (parameter : String) :
    fromStr ("pmt:" ++ parameter) =
      match PmtDeviceId.fromStr parameter with
      | some dev => .ok (.pmtDevice dev)
      | none => .error .invalidParameter := by
  have pieces : "pmt:" ++ parameter = "pmt" ++ String.singleton ':' ++ parameter := rfl
  rw [fromStr, pieces, Text.split_once_append (by decide)]
  rfl

/-- What is shown of a source is read back. -/
theorem from_str_display {source : CrashLogSource} (nameable : source.Nameable) :
    fromStr source.display = .ok source := by
  cases nameable with
  | acpi => rfl
  | eventLog => rfl
  | endpoint digits numeric =>
      have name := PmtDeviceId.is_endpoint_iff.mpr ⟨digits, numeric, rfl⟩
      rw [display, PmtDeviceId.display, from_str_pmt, PmtDeviceId.fromStr, if_pos name]
  | address bdf =>
      rw [display, PmtDeviceId.display, from_str_pmt, PmtDeviceId.fromStr, if_neg bdf.display_not_endpoint,
        bdf.from_str_display]

theorem device_nameable {s : String} {dev : PmtDeviceId} (parsed : PmtDeviceId.fromStr s = some dev) :
    (pmtDevice dev).Nameable := by
  rw [PmtDeviceId.fromStr] at parsed
  split_ifs at parsed with name
  · obtain ⟨digits, numeric, rfl⟩ := PmtDeviceId.is_endpoint_iff.mp name
    cases parsed
    exact .endpoint digits numeric
  · split at parsed
    · cases parsed
      exact .address _
    · cases parsed

theorem nameable_of_from_str {text : String} {source : CrashLogSource} (parsed : fromStr text = .ok source) :
    source.Nameable := by
  rw [fromStr] at parsed
  obtain ⟨kind, parameter⟩ := (Text.splitOnce ':' text).getD (text, "")
  dsimp only at parsed
  split at parsed
  · split_ifs at parsed
    cases parsed
    exact .acpi
  · split at parsed
    · next dev device =>
        cases parsed
        exact device_nameable device
    · cases parsed
  · split_ifs at parsed
    cases parsed
    exact .eventLog
  · cases parsed

theorem nameable_of_mem_discover {platform : Platform} {sysfs : SysFs} {source : CrashLogSource}
    (member : source ∈ discover platform sysfs) : source.Nameable := by
  rw [discover, List.mem_append, List.mem_append] at member
  rcases member with (table | log) | device
  · split_ifs at table
    · rw [List.mem_singleton.mp table]
      exact .acpi
    · exact absurd table List.not_mem_nil
  · split_ifs at log
    · rw [List.mem_singleton.mp log]
      exact .eventLog
    · exact absurd log List.not_mem_nil
  · obtain ⟨dev, found, rfl⟩ := List.mem_map.mp device
    cases platform with
    | linux =>
        rcases List.mem_append.mp found with endpoint | address
        · obtain ⟨name, listed, rfl⟩ := List.mem_map.mp endpoint
          have numbered := (List.mem_filter.mp listed).2
          obtain ⟨digits, numeric, rfl⟩ := PmtDeviceId.is_endpoint_iff.mp (of_decide_eq_true numbered)
          exact .endpoint digits numeric
        · obtain ⟨bdf, _, rfl⟩ := List.mem_map.mp address
          exact .address bdf
    | uefi => exact absurd found List.not_mem_nil
    | windows => exact absurd found List.not_mem_nil
    | other => exact absurd found List.not_mem_nil

theorem display_injective {left right : CrashLogSource} (leftName : left.Nameable) (rightName : right.Nameable)
    (same : left.display = right.display) : left = right := by
  have read := from_str_display leftName
  rw [same, from_str_display rightName] at read
  exact (Except.ok.inj read).symm

/-- Showing what was read is a normal form. -/
theorem from_str_normal_form (text : String) :
    ((fromStr text).bind fun source => fromStr source.display) = fromStr text := by
  cases parsed : fromStr text with
  | error err => rfl
  | ok source =>
      rw [Except.bind]
      exact from_str_display (nameable_of_from_str parsed)

theorem names_round_trip :
    (∀ source : CrashLogSource, source.Nameable → fromStr source.display = .ok source) ∧
      (∀ text source, fromStr text = .ok source → source.Nameable) ∧
      (∀ platform sysfs, ∀ source ∈ discover platform sysfs, source.Nameable) ∧
      (∀ left right : CrashLogSource, left.Nameable → right.Nameable → left.display = right.display → left = right) ∧
      ∀ text, ((fromStr text).bind fun source => fromStr source.display) = fromStr text :=
  ⟨fun _ => from_str_display, fun _ _ => nameable_of_from_str, fun _ _ _ => nameable_of_mem_discover,
    fun _ _ => display_injective, from_str_normal_form⟩

end CrashLogSource

end Names

namespace CrashLogSource

theorem crashlog42_round_trip :
    @fromStr .ascii (pmtDevice (.name "crashlog42")).display = .ok (.pmtDevice (.name "crashlog42")) :=
  (@names_round_trip .ascii).1 _ (@Nameable.endpoint .ascii "42" (by decide))

example : (@fromStr .ascii "pmt:1111:22:33.4").toOption = some (.pmtDevice (.bdf ⟨0x1111, 0x22, 0x33, 4⟩)) := by
  decide

end CrashLogSource

end Crashlog
