import Crashlog.Extraction

/-!
# Source by source

The sources that are listed can be named one by one, or none of them. A device
as a source fails as soon as one of its endpoints does, and without a source
all endpoints are expanded together once more: the regions are the same
exactly when neither makes a difference.
-/

namespace Crashlog

open Bytes

namespace PmtSysFs

/-- A failure that ends the loop over the endpoints. -/
def fails (sysfs : SysFs) (endpoint : PathBuf) : Bool :=
  match extract sysfs endpoint with
  | .ok _ => false
  | .error error => error != .emptyRegion

theorem extract_endpoints_eq (sysfs : SysFs) (endpoints : List PathBuf) (before : List CrashLog) :
    (extractEndpoints sysfs endpoints before).toOption =
      if endpoints.any (fails sysfs) then none
      else some (before ++ endpoints.filterMap fun endpoint => (extract sysfs endpoint).toOption) := by
  induction endpoints generalizing before with
  | nil => simp [extractEndpoints, Except.toOption]
  | cons endpoint rest ih =>
      rw [extractEndpoints, List.any_cons, fails]
      cases read : extract sysfs endpoint with
      | ok crashlog =>
          dsimp only
          rw [ih, Bool.false_or, List.filterMap_cons, read, List.append_assoc]
          rfl
      | error error =>
          by_cases empty : error = .emptyRegion
          · subst empty
            dsimp only
            rw [ih, List.filterMap_cons, read]
            rfl
          · have ended : (error != .emptyRegion) = true := bne_iff_ne.mpr empty
            simp [empty, Except.toOption]

theorem marked_regions (crashlogs : Except ExtractionError (List CrashLog)) (source : CrashLogSource) :
    ((crashlogs.map fun crashlogs => crashlogs.map fun crashlog =>
        { crashlog with metadata := { crashlog.metadata with source := some source } }).toOption.getD []).flatMap
      CrashLog.regions = (crashlogs.toOption.getD []).flatMap CrashLog.regions := by
  cases crashlogs with
  | error error => rfl
  | ok crashlogs =>
      change (crashlogs.map _).flatMap CrashLog.regions = crashlogs.flatMap CrashLog.regions
      rw [List.flatMap_map]

/-- The regions of the endpoints of a device, without those that fail. -/
def endpointRegions [UnicodeTables] (sysfs : SysFs) (dev : PmtDeviceId) : List Region :=
  ((getEndpoints sysfs {} dev).filterMap fun endpoint => (extract sysfs endpoint).toOption).flatMap CrashLog.regions

theorem mem_extracted [UnicodeTables] {sysfs : SysFs} {dev : PmtDeviceId} {endpoint : PathBuf} {crashlog : CrashLog}
    (member : endpoint ∈ getEndpoints sysfs {} dev) (read : extract sysfs endpoint = .ok crashlog) :
    crashlog ∈ (getEndpoints sysfs {} dev).filterMap fun endpoint => (extract sysfs endpoint).toOption :=
  List.mem_filterMap.mpr ⟨endpoint, member, except_to_option_eq_some.mpr read⟩

theorem mem_endpoint_regions [UnicodeTables] {sysfs : SysFs} {dev : PmtDeviceId} {endpoint : PathBuf}
    {crashlog : CrashLog} {region : Region} (member : endpoint ∈ getEndpoints sysfs {} dev)
    (read : extract sysfs endpoint = .ok crashlog) (inside : region ∈ crashlog.regions) :
    region ∈ endpointRegions sysfs dev :=
  List.mem_flatMap.mpr ⟨crashlog, mem_extracted member read, inside⟩

/-- The regions of a device as a source of its own. -/
def sourceRegions [UnicodeTables] (sysfs : SysFs) (dev : PmtDeviceId) : List Region :=
  if (getEndpoints sysfs {} dev).any (fails sysfs) then [] else endpointRegions sysfs dev

theorem source_regions_eq [UnicodeTables] [WindowsTime] {machine : Machine} (linux : machine.platform = .linux)
    (dev : PmtDeviceId) :
    ((CrashLogSource.extract machine (.pmtDevice dev)).toOption.getD []).flatMap CrashLog.regions =
      sourceRegions machine.sysfs dev := by
  have extracted : (Pmt.extract machine dev).toOption =
      (extractEndpoints machine.sysfs (getEndpoints machine.sysfs {} dev) []).toOption := by
    simp only [Pmt.extract, linux]
    cases extractEndpoints machine.sysfs (getEndpoints machine.sysfs {} dev) [] <;> rfl
  rw [CrashLogSource.extract, marked_regions, extracted, extract_endpoints_eq, sourceRegions]
  split_ifs <;> rfl

/-- No source has more regions than its endpoints. -/
theorem source_regions_sublist [UnicodeTables] (sysfs : SysFs) (dev : PmtDeviceId) :
    (sourceRegions sysfs dev).Sublist (endpointRegions sysfs dev) := by
  unfold sourceRegions
  split_ifs
  · exact List.nil_sublist _
  · exact List.Sublist.refl _

theorem source_regions_eq_iff [UnicodeTables] {sysfs : SysFs} {dev : PmtDeviceId} :
    sourceRegions sysfs dev = endpointRegions sysfs dev ↔
      ∀ endpoint ∈ getEndpoints sysfs {} dev, ∀ crashlog, extract sysfs endpoint = .ok crashlog →
        ∀ other ∈ getEndpoints sysfs {} dev, fails sysfs other = false := by
  unfold sourceRegions
  split_ifs with failing
  · obtain ⟨other, listed, failed⟩ := List.any_eq_true.mp failing
    rw [eq_comm, endpointRegions, List.flatMap_eq_nil_iff]
    constructor
    · intro empty endpoint member crashlog read
      have found := mem_extracted member read
      exact absurd (empty crashlog found) (endpoint_bare read).filled
    · intro working crashlog found
      obtain ⟨endpoint, member, read⟩ := List.mem_filterMap.mp found
      rw [working endpoint member crashlog (except_to_option_eq_some.mp read) other listed] at failed
      cases failed
  · rw [List.any_eq_true] at failing
    refine ⟨fun _ endpoint _ crashlog _ other listed => ?_, fun _ => rfl⟩
    rw [← Bool.not_eq_true]
    exact fun failed => failing ⟨other, listed, failed⟩

end PmtSysFs

/-- Sublists of the same total length are the same one by one. -/
theorem flat_map_eq_iff {α β : Type} {part whole : α → List β} (items : List α)
    (sub : ∀ item ∈ items, (part item).Sublist (whole item)) :
    items.flatMap part = items.flatMap whole ↔ ∀ item ∈ items, part item = whole item := by
  refine ⟨fun same => ?_, List.flatMap_congr⟩
  induction items with
  | nil => exact fun _ member => by cases member
  | cons item rest ih =>
      rw [List.forall_mem_cons] at sub ⊢
      rw [List.flatMap_cons, List.flatMap_cons] at same
      have sizes := congrArg List.length same
      have firsts := sub.1.length_le
      have others := (List.Sublist.flatMap_right rest sub.2).length_le
      rw [List.length_append, List.length_append] at sizes
      obtain ⟨first, later⟩ := List.append_inj same (by omega)
      exact ⟨first, ih sub.2 later⟩

/-- On Linux the sources that are listed give, one by one, the regions that are
extracted without naming any exactly when no device has an endpoint that fails
next to one that does not, and no region has boxed ones, which are taken out
twice where no source is named. -/
theorem App.sources_agree_iff [UnicodeTables] [WindowsTime] (machine : Machine) (linux : machine.platform = .linux) :
    (result machine (CrashLogSource.discover .linux machine.sysfs)).flatMap CrashLog.regions =
        (result machine []).flatMap CrashLog.regions ↔
      ∀ dev ∈ PmtSysFs.discover machine.sysfs {}, ∀ endpoint ∈ PmtSysFs.getEndpoints machine.sysfs {} dev,
        ∀ crashlog, PmtSysFs.extract machine.sysfs endpoint = .ok crashlog →
          (∀ other ∈ PmtSysFs.getEndpoints machine.sysfs {} dev, PmtSysFs.fails machine.sysfs other = false) ∧
            ∀ region ∈ crashlog.regions, boxedRegions region = [] := by
  let devices := PmtSysFs.discover machine.sysfs {}
  have acpi : ((CrashLogSource.extract machine .acpi).toOption.getD []).flatMap CrashLog.regions =
      (CrashLog.fromAcpiSysfs machine).toOption.toList.flatMap CrashLog.regions := by
    rw [CrashLogSource.extract, PmtSysFs.marked_regions]
    simp only [Acpi.extract, linux, CrashLog.fromAcpiSysfs]
    cases AcpiSysFs.extract machine {} <;> rfl
  have named : (result machine (CrashLogSource.discover .linux machine.sysfs)).flatMap CrashLog.regions =
      (CrashLog.fromAcpiSysfs machine).toOption.toList.flatMap CrashLog.regions ++
        devices.flatMap (PmtSysFs.sourceRegions machine.sysfs) := by
    have listed : CrashLogSource.discover .linux machine.sysfs = .acpi :: devices.map .pmtDevice := rfl
    rw [result, listed, if_neg (by simp), List.flatMap_cons, List.flatMap_append, acpi, List.flatMap_map,
      List.flatMap_assoc]
    simp only [PmtSysFs.source_regions_eq linux]
  have together : (CrashLog.fromPmtSysfs machine.sysfs).toOption.toList.flatMap CrashLog.regions =
      boxExpansion.run (devices.flatMap (PmtSysFs.endpointRegions machine.sysfs)) := by
    have all : ((PmtSysFs.getAllEndpoints machine.sysfs {}).filterMap fun dev =>
        (PmtSysFs.extract machine.sysfs dev).toOption).flatMap CrashLog.regions =
          devices.flatMap (PmtSysFs.endpointRegions machine.sysfs) := by
      rw [PmtSysFs.getAllEndpoints, List.filterMap_flatMap, List.flatMap_assoc]
      rfl
    rw [CrashLog.fromPmtSysfs, all, CrashLog.from_regions_eq]
    split_ifs with empty
    · rw [empty, Expansion.run_nil]
      rfl
    · exact List.append_nil _
  have unnamed : (result machine []).flatMap CrashLog.regions =
      (CrashLog.fromAcpiSysfs machine).toOption.toList.flatMap CrashLog.regions ++
        boxExpansion.run (devices.flatMap (PmtSysFs.endpointRegions machine.sysfs)) := by
    simp only [result, linux, List.isEmpty_nil, if_true]
    rw [List.flatMap_append, together]
  have sub := List.Sublist.flatMap_right devices fun dev _ => PmtSysFs.source_regions_sublist machine.sysfs dev
  rw [named, unnamed, List.append_cancel_left_eq]
  have same : devices.flatMap (PmtSysFs.sourceRegions machine.sysfs) =
        boxExpansion.run (devices.flatMap (PmtSysFs.endpointRegions machine.sysfs)) ↔
      devices.flatMap (PmtSysFs.sourceRegions machine.sysfs) =
          devices.flatMap (PmtSysFs.endpointRegions machine.sysfs) ∧
        ∀ region ∈ devices.flatMap (PmtSysFs.endpointRegions machine.sysfs), boxExpansion.children region = [] := by
    constructor
    · intro same
      have sizes := congrArg List.length same
      have drained := (boxExpansion.run_perm (devices.flatMap (PmtSysFs.endpointRegions machine.sysfs))).length_eq
      rw [List.length_append] at drained
      have few := sub.length_le
      exact ⟨sub.eq_of_length (by omega), (boxExpansion.run_length_eq_iff _).mp (by omega)⟩
    · rintro ⟨same, childless⟩
      rw [boxExpansion.run_eq_self childless, same]
  rw [same, flat_map_eq_iff devices fun dev _ => PmtSysFs.source_regions_sublist machine.sysfs dev]
  simp only [PmtSysFs.source_regions_eq_iff]
  constructor
  · rintro ⟨working, childless⟩ dev listed endpoint member crashlog read
    refine ⟨working dev listed endpoint member crashlog read, fun region inside => ?_⟩
    have extracted := PmtSysFs.mem_endpoint_regions member read inside
    exact List.reverse_eq_nil_iff.mp (childless region (List.mem_flatMap.mpr ⟨dev, listed, extracted⟩))
  · intro fine
    refine ⟨fun dev listed endpoint member crashlog read => (fine dev listed endpoint member crashlog read).1, ?_⟩
    intro region inside
    obtain ⟨dev, listed, extracted⟩ := List.mem_flatMap.mp inside
    obtain ⟨crashlog, found, inside⟩ := List.mem_flatMap.mp extracted
    obtain ⟨endpoint, member, read⟩ := List.mem_filterMap.mp found
    exact List.reverse_eq_nil_iff.mpr
      ((fine dev listed endpoint member crashlog (except_to_option_eq_some.mp read)).2 region inside)

/-- The device of a segment with more than 16 bits is listed once. -/
theorem single_source_agrees :
    (@App.result .ascii EventLog.epoch (singleMachine "10000:e0:06.0")
        (@CrashLogSource.discover .ascii .linux (singleMachine "10000:e0:06.0").sysfs)).flatMap CrashLog.regions =
      (@App.result .ascii EventLog.epoch (singleMachine "10000:e0:06.0") []).flatMap CrashLog.regions := by
  refine (@App.sources_agree_iff .ascii EventLog.epoch (singleMachine "10000:e0:06.0") rfl).mpr ?_
  have fine : (@PmtSysFs.discover .ascii (singleMachine "10000:e0:06.0").sysfs {}).all fun dev =>
      (@PmtSysFs.getEndpoints .ascii (singleMachine "10000:e0:06.0").sysfs {} dev).all fun endpoint =>
        !PmtSysFs.fails (singleMachine "10000:e0:06.0").sysfs endpoint &&
          ((PmtSysFs.extract (singleMachine "10000:e0:06.0").sysfs endpoint).toOption.all fun crashlog =>
            crashlog.regions.all fun region => boxedRegions region = []) := by
    decide +kernel
  intro dev listed endpoint member crashlog read
  have working := List.all_eq_true.mp (List.all_eq_true.mp fine dev listed)
  constructor
  · intro other inside
    have checked := working other inside
    rw [Bool.and_eq_true, Bool.not_eq_true'] at checked
    exact checked.1
  · intro region inside
    have checked := working endpoint member
    rw [Bool.and_eq_true, read] at checked
    exact of_decide_eq_true (List.all_eq_true.mp checked.2 region inside)

end Crashlog
