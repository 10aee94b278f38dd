import Crashlog.CrashLog
import Crashlog.Digits

/-!
# Names of sources and Crash Logs

How the source of a Crash Log is shown, and with it the metadata that output
files are named after. The name of a PCI function is read back from what is
shown of it.
-/

namespace Crashlog

def PciBdf.display (bdf : PciBdf) : String :=
  Text.hex 4 bdf.segment.toNat ++ ":" ++ Text.hex 2 bdf.bus.toNat ++ ":" ++ Text.hex 2 bdf.device.toNat ++
    "." ++ Text.hex 1 bdf.function.toNat

def PciBdf.fromStr (s : String) : Option PciBdf := do
  let (segment, bdf) ← Text.splitOnce ':' s
  let (bus, df) ← Text.splitOnce ':' bdf
  let (device, function) ← Text.splitOnce '.' df
  let segment ← Text.fromStrRadix 16 (2 ^ 16) segment
  let bus ← Text.fromStrRadix 16 (2 ^ 8) bus
  let device ← Text.fromStrRadix 16 (2 ^ 8) device
  let function ← Text.fromStrRadix 16 (2 ^ 8) function
  some {
    segment := UInt16.ofNat segment
    bus := UInt8.ofNat bus
    device := UInt8.ofNat device
    function := UInt8.ofNat function }

/-- What is shown of a PCI function is read back. -/
theorem PciBdf.from_str_display (bdf : PciBdf) : PciBdf.fromStr bdf.display = some bdf := by
  have colon : ∀ width value, ':' ∉ (Text.hex width value).toList := Text.not_mem_hex (by decide)
  have dot : ∀ width value, '.' ∉ (Text.hex width value).toList := Text.not_mem_hex (by decide)
  have shown : bdf.display = Text.hex 4 bdf.segment.toNat ++ String.singleton ':' ++
      (Text.hex 2 bdf.bus.toNat ++ String.singleton ':' ++
        (Text.hex 2 bdf.device.toNat ++ String.singleton '.' ++ Text.hex 1 bdf.function.toNat)) := by
    simp only [PciBdf.display, String.append_assoc]
    rfl
  rw [PciBdf.fromStr, shown]
  simp only [Option.bind_eq_bind, Text.split_once_append (colon _ _), Text.split_once_append (dot _ _),
    Option.bind_some, Text.from_str_radix_hex bdf.segment.toNat_lt, Text.from_str_radix_hex bdf.bus.toNat_lt,
    Text.from_str_radix_hex bdf.device.toNat_lt, Text.from_str_radix_hex bdf.function.toNat_lt,
    UInt16.ofNat_toNat, UInt8.ofNat_toNat]

def PmtDeviceId.display : PmtDeviceId → String
  | .name device => device
  | .bdf address => address.display

def CrashLogSource.display : CrashLogSource → String
  | .acpi => "acpi"
  | .pmtDevice device => "pmt:" ++ device.display
  | .eventLog => "evt"

def Time.display (time : Time) : String :=
  Text.decimal 4 time.year.toNat ++ "-" ++ Text.decimal 2 time.month.toNat ++ "-" ++
    Text.decimal 2 time.day.toNat ++ "-" ++ Text.decimal 2 time.hour.toNat ++ "-" ++
    Text.decimal 2 time.minute.toNat

def Metadata.display (metadata : Metadata) : String :=
  match metadata.computer, metadata.source, metadata.time with
  | some computer, some source, some time => computer ++ "-" ++ source.display ++ "-" ++ time.display
  | some computer, none, some time => computer ++ "-" ++ time.display
  | none, none, some time => time.display
  | none, some source, some time => source.display ++ "-" ++ time.display
  | some computer, none, none => computer
  | some computer, some source, none => computer ++ "-" ++ source.display
  | none, some source, none => source.display
  | none, none, none => "unnamed"

example : Time.display { year := 2025, month := 3, day := 14, hour := 9, minute := 5 } = "2025-03-14-09-05" := by
  decide

end Crashlog
