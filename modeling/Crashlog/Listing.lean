import Crashlog.Control
import Crashlog.Table

/-!
# The list of sources

The application lists the sources of the platform in a table, each under the
name that the other commands take it by and with its capabilities. What is
printed is read back into the sources and their capabilities.
-/

namespace Crashlog

open Padding

def Capability.display : Capability → String
  | extract => "extract"
  | trigger => "trigger"
  | enableDisable => "enable/disable"
  | clear => "clear"

namespace CrashLogSource

def description : CrashLogSource → String
  | .acpi => "ACPI BERT"
  | .eventLog => "Windows Event Log"
  | .pmtDevice (.name name) => "PMT endpoint (" ++ name ++ ")"
  | .pmtDevice (.bdf bdf) => "PMT endpoints for PCI device " ++ bdf.display

end CrashLogSource

namespace App

variable [UnicodeTables] {State : Type} (devices : Devices State) (platform : Platform) (state : State)

def sourceRow (source : CrashLogSource) : Table.Row where
  cells := [source.display, source.description,
    String.intercalate ", " ((CrashLogSource.capabilities devices platform state source).map Capability.display)]

def list : List Char :=
  let sources := CrashLogSource.discover platform (devices.sysfs state)
  if sources.isEmpty then "No available Crash Log sources found.\n".toList
  else (Table.build ["Source", "Description", "Capabilities"] []
    (sources.map (sourceRow devices platform state))).render

end App

/-! ## Reading the list -/

def Capability.ofText (text : List Char) : Option Capability :=
  [extract, trigger, enableDisable, clear].find? fun capability => capability.display.toList = text

def readCapabilities (text : List Char) : List Capability :=
  (text.splitOn ',').filterMap fun piece => Capability.ofText (trim piece)

/-- A row of the list, by its first and its last cell. -/
def readSource [UnicodeTables] : List (List Char) → Option (CrashLogSource × List Capability)
  | [name, _, capabilities] =>
      (CrashLogSource.fromStr (String.ofList name)).toOption.map fun source => (source, readCapabilities capabilities)
  | _ => none

/-! ## Names of sources are single words -/

theorem word_bdf (bdf : PciBdf) : ∀ c ∈ bdf.display.toList, isWordChar c = true := by
  have digits (width value : Nat) : ∀ c ∈ (Text.hex width value).toList, isWordChar c = true := by
    intro c member
    have small := Text.hex_digit_value_lt member
    by_contra blank
    simp only [isWordChar, Bool.not_eq_true', Bool.not_eq_false, Bool.or_eq_true, beq_iff_eq] at blank
    rcases blank with rfl | rfl
    · revert small
      decide
    · revert small
      decide
  have colon : ∀ c ∈ ":".toList, isWordChar c = true := word_of_all (by decide)
  have dot : ∀ c ∈ ".".toList, isWordChar c = true := word_of_all (by decide)
  exact word_append (word_append (word_append (word_append (word_append (word_append (digits _ _) colon) (digits _ _))
    colon) (digits _ _)) dot) (digits _ _)

section Names

variable [UnicodeTables]

theorem word_numeric {digits : String} (numeric : Text.AllChars (fun c => UnicodeTables.isNumeric c = true) digits) :
    ∀ c ∈ digits.toList, isWordChar c = true := by
  intro c member
  have isNumeric := numeric c member
  by_contra blank
  simp only [isWordChar, Bool.not_eq_true', Bool.not_eq_false, Bool.or_eq_true, beq_iff_eq] at blank
  rcases blank with rfl | rfl
  · rw [UnicodeTables.is_numeric_ascii ' ' (by decide)] at isNumeric
    exact absurd isNumeric (by decide)
  · rw [UnicodeTables.is_numeric_ascii '\n' (by decide)] at isNumeric
    exact absurd isNumeric (by decide)

theorem word_display {source : CrashLogSource} (nameable : source.Nameable) :
    ∀ c ∈ source.display.toList, isWordChar c = true := by
  cases nameable with
  | acpi => exact word_of_all (by decide)
  | eventLog => exact word_of_all (by decide)
  | endpoint digits numeric =>
      exact word_append (word_of_all (by decide)) (word_append (word_of_all (by decide)) (word_numeric numeric))
  | address bdf => exact word_append (word_of_all (by decide)) (word_bdf bdf)

theorem not_mem_description {source : CrashLogSource} (nameable : source.Nameable) :
    '\n' ∉ source.description.toList := by
  have whole {text : String} (word : ∀ c ∈ text.toList, isWordChar c = true) : '\n' ∉ text.toList := fun newline =>
    absurd (word _ newline) (by decide)
  cases nameable with
  | acpi => decide
  | eventLog => decide
  | endpoint digits numeric =>
      have stem : '\n' ∉ "crashlog".toList := by decide
      have front : '\n' ∉ "PMT endpoint (".toList := by decide
      have back : '\n' ∉ ")".toList := by decide
      exact not_mem_append (not_mem_append front (not_mem_append stem (whole (word_numeric numeric)))) back
  | address bdf =>
      have front : '\n' ∉ "PMT endpoints for PCI device ".toList := by decide
      exact not_mem_append front (whole (word_bdf bdf))

end Names

/-! ## Sets of capabilities -/

/-- A set of capabilities, in their order. -/
def selected (holds : Capability → Bool) : List Capability :=
  [Capability.extract, .trigger, .enableDisable, .clear].filter holds

/-- The four members one by one. -/
def members (extract trigger enableDisable clear : Bool) : Capability → Bool
  | .extract => extract
  | .trigger => trigger
  | .enableDisable => enableDisable
  | .clear => clear

theorem selected_members {P : List Capability → Prop}
    (all : ∀ extract trigger enableDisable clear, P (selected (members extract trigger enableDisable clear)))
    (holds : Capability → Bool) : P (selected holds) := by
  have same : selected holds = selected (members (holds .extract) (holds .trigger) (holds .enableDisable)
      (holds .clear)) := by
    refine List.filter_congr fun capability _ => ?_
    cases capability <;> rfl
  rw [same]
  exact all _ _ _ _

/-- How the capabilities of a source are listed. -/
def joined (capabilities : List Capability) : String := String.intercalate ", " (capabilities.map Capability.display)

theorem read_joined (holds : Capability → Bool) :
    readCapabilities (trim (joined (selected holds)).toList) = selected holds :=
  selected_members (P := fun set => readCapabilities (trim (joined set).toList) = set) (by decide +kernel) holds

theorem not_mem_joined (holds : Capability → Bool) : '\n' ∉ (joined (selected holds)).toList :=
  selected_members (P := fun set => '\n' ∉ (joined set).toList) (by decide +kernel) holds

section List

variable [UnicodeTables] {State : Type} {devices : Devices State} {platform : Platform} {state : State}

theorem capabilities_selected (source : CrashLogSource) :
    ∃ holds, CrashLogSource.capabilities devices platform state source = selected holds := by
  cases source with
  | acpi => exact ⟨members true false false false, rfl⟩
  | eventLog => exact ⟨members true false false false, rfl⟩
  | pmtDevice dev =>
      cases platform with
      | linux =>
          exact ⟨fun capability => ((PmtSysFs.getEndpoints (devices.sysfs state) {} dev).map
            (PmtSysFsEndpoint.capabilities devices state)).any (capability ∈ ·), rfl⟩
      | uefi | windows | other => exact ⟨fun _ => false, rfl⟩

theorem read_source_row {source : CrashLogSource} (nameable : source.Nameable) :
    readSource ((App.sourceRow devices platform state source).cells.map Table.trimmed) =
      some (source, CrashLogSource.capabilities devices platform state source) := by
  obtain ⟨holds, set⟩ := @capabilities_selected _ _ devices platform state source
  have name : Table.trimmed source.display = source.display.toList := trim_word (word_display nameable)
  simp only [App.sourceRow, List.map_cons, List.map_nil, readSource, name, String.ofList_toList,
    CrashLogSource.from_str_display nameable, Except.toOption, Option.map_some, set]
  rw [Table.trimmed, ← joined, read_joined]

theorem row_one_lined {source : CrashLogSource} (nameable : source.Nameable) :
    ∀ cell ∈ (App.sourceRow devices platform state source).cells, '\n' ∉ cell.toList := by
  obtain ⟨holds, set⟩ := @capabilities_selected _ _ devices platform state source
  intro cell member
  simp only [App.sourceRow, List.mem_cons, List.not_mem_nil, or_false] at member
  rcases member with rfl | rfl | rfl
  · exact fun newline => absurd (word_display nameable _ newline) (by decide)
  · exact not_mem_description nameable
  · rw [set]
    exact not_mem_joined holds

/-- What is listed of the sources is read back: each under the name that
commands take it by, in the order of discovery, with its capabilities. -/
theorem App.list_read_back (devices : Devices State) (platform : Platform) (state : State)
    (discovered : CrashLogSource.discover platform (devices.sysfs state) ≠ []) :
    ((Table.read Table.plainFrame (App.list devices platform state)).map fun table => table.2.map readSource) =
      some ((CrashLogSource.discover platform (devices.sysfs state)).map fun source =>
        some (source, CrashLogSource.capabilities devices platform state source)) := by
  have nameable : ∀ source ∈ CrashLogSource.discover platform (devices.sysfs state), source.Nameable := fun _ =>
    CrashLogSource.nameable_of_mem_discover
  have lined : Table.OneLined ["Source", "Description", "Capabilities"]
      ((CrashLogSource.discover platform (devices.sysfs state)).map (App.sourceRow devices platform state)) := by
    refine ⟨by decide, fun row member => ?_⟩
    obtain ⟨source, listed, rfl⟩ := List.mem_map.mp member
    exact row_one_lined (nameable source listed)
  have filled : (CrashLogSource.discover platform (devices.sysfs state)).isEmpty = false := by
    rwa [← Bool.not_eq_true, List.isEmpty_iff]
  unfold App.list
  simp only [filled, Bool.false_eq_true, if_false]
  rw [Table.render, Table.build_back Table.clear_plain lined, Option.map_some, Option.some_inj, List.map_map,
    List.map_map]
  refine List.map_congr_left fun source member => ?_
  have whole : (sourceRow devices platform state source).cells.take
      ["Source", "Description", "Capabilities"].length = (sourceRow devices platform state source).cells := rfl
  rw [Function.comp_apply, Function.comp_apply, whole]
  exact read_source_row (nameable source member)

end List

/-- The endpoint that can be enabled is listed next to the ACPI table. -/
theorem one_endpoint_listed :
    ((Table.read Table.plainFrame (@App.list .ascii _ oneEndpoint .linux fun _ => [])).map fun table =>
      table.2.map (@readSource .ascii)) =
        some [some (.acpi, [.extract]), some (.pmtDevice (.name "crashlog0"), [.enableDisable])] := by
  have unlisted : oneEndpointTree.names (PmtSysFs.pciDevPath {}) = [] := by decide
  have functions : @PmtSysFs.discoverFromPci .ascii oneEndpointTree {} = [] := by
    unfold PmtSysFs.discoverFromPci
    rw [unlisted]
    simp [PciBdf.set]
  have endpoints : @PmtSysFs.discoverFromClass .ascii oneEndpointTree {} = [.name "crashlog0"] := by decide
  have discovered : @CrashLogSource.discover .ascii .linux (oneEndpoint.sysfs fun _ => []) =
      [.acpi, .pmtDevice (.name "crashlog0")] := by
    change _ ++ _ ++ (@PmtSysFs.discover .ascii oneEndpointTree {}).map CrashLogSource.pmtDevice = _
    unfold PmtSysFs.discover
    rw [functions, endpoints]
    rfl
  have sources : (@CrashLogSource.discover .ascii .linux (oneEndpoint.sysfs fun _ => [])).map (fun source =>
      some (source, @CrashLogSource.capabilities .ascii _ oneEndpoint .linux (fun _ => []) source)) =
        [some (.acpi, [.extract]), some (.pmtDevice (.name "crashlog0"), [.enableDisable])] := by
    rw [discovered]
    decide
  rw [← sources]
  exact @App.list_read_back .ascii _ oneEndpoint .linux (fun _ => []) (by decide)

end Crashlog
