import Crashlog.DocumentOrder
import Crashlog.PathBuf
import Crashlog.Source
import Mathlib.Data.List.Dedup

/-!
# Crash Logs of PMT devices

The endpoints of the PMT devices are found through their class and through the
PCI functions they belong to. Both lead to the same endpoints, and boxed
regions are taken out once for each endpoint and once for all of them
together: a record is extracted once exactly when neither happens to it twice.
-/

namespace Crashlog

open Bytes

/-- The part of the file system that describes devices. A name that cannot be
read is none. -/
structure SysFs where
  readDir : PathBuf → Option (List (Option String))
  isDir : PathBuf → Bool
  read : PathBuf → Except String (List Byte)

namespace SysFs

/-- The names in a directory that can be read. -/
def names (sysfs : SysFs) (path : PathBuf) : List String := ((sysfs.readDir path).getD []).reduceOption

end SysFs

structure PmtSysFs where
  root : PathBuf := "/"

namespace PmtSysFs

variable [UnicodeTables]

/-- A stem followed by numeric characters only. -/
def isNumbered (stem name : String) : Bool := Text.trimEndNumeric name = stem

def classPath (pmt : PmtSysFs) : PathBuf := PathBuf.extend pmt.root ["sys", "class", "intel_pmt"]

def pciDevPath (pmt : PmtSysFs) : PathBuf := PathBuf.extend pmt.root ["sys", "bus", "pci", "devices"]

variable (sysfs : SysFs) (pmt : PmtSysFs)

def discoverFromClass : List PmtDeviceId :=
  ((sysfs.names pmt.classPath).filter (isNumbered "crashlog")).map PmtDeviceId.name

def hasCrashlogVsec (path : PathBuf) : Bool := (sysfs.names path).any (isNumbered "intel_vsec.crashlog.")

end PmtSysFs

namespace PciBdf

/-- The fields one after the other, as they are compared. -/
def rank (bdf : PciBdf) : Nat :=
  ((bdf.segment.toNat * 2 ^ 8 + bdf.bus.toNat) * 2 ^ 8 + bdf.device.toNat) * 2 ^ 8 + bdf.function.toNat

/-- The set of the given PCI functions, in ascending order. -/
def set (bdfs : List PciBdf) : List PciBdf := bdfs.dedup.mergeSort fun left right => left.rank ≤ right.rank

theorem mem_set {bdfs : List PciBdf} {bdf : PciBdf} : bdf ∈ set bdfs ↔ bdf ∈ bdfs := by
  rw [set, List.mem_mergeSort, List.mem_dedup]

end PciBdf

namespace PmtSysFs

variable [UnicodeTables] (sysfs : SysFs) (pmt : PmtSysFs)

def discoverFromPci : List PmtDeviceId :=
  (PciBdf.set ((sysfs.names pmt.pciDevPath).filterMap fun filename =>
    (PciBdf.fromStr filename).bind fun bdf =>
      if hasCrashlogVsec sysfs (PathBuf.push pmt.pciDevPath filename) then some bdf else none)).map PmtDeviceId.bdf

def discover : List PmtDeviceId := discoverFromClass sysfs pmt ++ discoverFromPci sysfs pmt

/-- An endpoint is a directory. -/
def endpoint (path : PathBuf) : Option PathBuf := if sysfs.isDir path then some path else none

def getEndpointsFromVsec (path : PathBuf) : List PathBuf :=
  let pmtPath := PathBuf.push path "intel_pmt"
  ((sysfs.names pmtPath).filter (isNumbered "crashlog")).filterMap fun filename =>
    endpoint sysfs (PathBuf.push pmtPath filename)

def getEndpointsFromBdf (bdf : PciBdf) : List PathBuf :=
  let path := PathBuf.push pmt.pciDevPath bdf.display
  ((sysfs.names path).filter (isNumbered "intel_vsec.crashlog.")).flatMap fun filename =>
    getEndpointsFromVsec sysfs (PathBuf.push path filename)

def getEndpoints : PmtDeviceId → List PathBuf
  | .name device => (endpoint sysfs (PathBuf.push pmt.classPath device)).toList
  | .bdf address => getEndpointsFromBdf sysfs pmt address

def getAllEndpoints : List PathBuf := (discover sysfs pmt).flatMap (getEndpoints sysfs pmt)

omit [UnicodeTables] in
/-- The Crash Log of an endpoint. -/
def extract (path : PathBuf) : Except Error CrashLog :=
  match sysfs.read (PathBuf.push path "crashlog") with
  | .error message => .error (.ioError message)
  | .ok bytes => do
      let region ← Region.fromSlice bytes
      CrashLog.fromRegions [region]

end PmtSysFs

/-- The Crash Log of all PMT devices. -/
def CrashLog.fromPmtSysfs [UnicodeTables] (sysfs : SysFs) : Except Error CrashLog :=
  let endpoints := PmtSysFs.getAllEndpoints sysfs {}
  fromRegions ((endpoints.filterMap fun dev => (PmtSysFs.extract sysfs dev).toOption).flatMap CrashLog.regions)

/-! ## The devices behind the tree -/

/-- A PMT device of its own with the contents of its `crashlog` file. -/
structure PmtEndpoint where
  name : String
  content : List Byte

structure PmtVsec where
  name : String
  endpoints : List PmtEndpoint

structure PciDevice where
  name : String
  vsecs : List PmtVsec

namespace PciDevice

def path (device : PciDevice) : PathBuf := PathBuf.push (PmtSysFs.pciDevPath {}) device.name

def vsecPath (device : PciDevice) (vsec : PmtVsec) : PathBuf :=
  PathBuf.push (PathBuf.push device.path vsec.name) "intel_pmt"

def endpoints (device : PciDevice) : List PmtEndpoint := device.vsecs.flatMap PmtVsec.endpoints

end PciDevice

/-- The endpoint is found at the path. -/
structure SysFs.Holds (sysfs : SysFs) (path : PathBuf) (device : PmtEndpoint) : Prop where
  isDir : sysfs.isDir path = true
  read : sysfs.read (PathBuf.push path "crashlog") = .ok device.content

/-- What Linux shows of the PCI devices: each has its directory with the PMT
devices below, and every PMT device has a link in the class directory. -/
structure SysFs.Shows [UnicodeTables] (sysfs : SysFs) (devices : List PciDevice) : Prop where
  pci : sysfs.names (PmtSysFs.pciDevPath {}) = devices.map PciDevice.name
  absent : ∀ bdf : PciBdf, bdf.display ∉ devices.map PciDevice.name →
    sysfs.readDir (PathBuf.push (PmtSysFs.pciDevPath {}) bdf.display) = none
  vsecs : ∀ device ∈ devices, (sysfs.names device.path).filter (PmtSysFs.isNumbered "intel_vsec.crashlog.") =
    device.vsecs.map PmtVsec.name
  endpoints : ∀ device ∈ devices, ∀ vsec ∈ device.vsecs,
    (sysfs.names (device.vsecPath vsec)).filter (PmtSysFs.isNumbered "crashlog") =
      vsec.endpoints.map PmtEndpoint.name
  holds : ∀ device ∈ devices, ∀ vsec ∈ device.vsecs, ∀ endpoint ∈ vsec.endpoints,
    sysfs.Holds (PathBuf.push (device.vsecPath vsec) endpoint.name) endpoint
  links : ((sysfs.names (PmtSysFs.classPath {})).filter (PmtSysFs.isNumbered "crashlog")).Perm
    ((devices.flatMap PciDevice.endpoints).map PmtEndpoint.name)
  linked : ∀ endpoint ∈ devices.flatMap PciDevice.endpoints,
    sysfs.Holds (PathBuf.push (PmtSysFs.classPath {}) endpoint.name) endpoint

/-- The region stored in the file of an endpoint. -/
def PmtEndpoint.region (endpoint : PmtEndpoint) : Option Region := (Region.fromSlice endpoint.content).toOption

/-- The regions stored in the files of all endpoints. -/
def pmtRegions (devices : List PciDevice) : List Region :=
  (devices.flatMap PciDevice.endpoints).filterMap PmtEndpoint.region

/-- The records of all endpoints, boxed ones included, each once. -/
def pmtRecords (devices : List PciDevice) : List Record :=
  (documentOrder (pmtRegions devices)).flatMap Region.records

/-- Every record is extracted exactly once. Without a record there is no Crash
Log. -/
def ExtractedOnce [UnicodeTables] (sysfs : SysFs) (devices : List PciDevice) : Prop :=
  match CrashLog.fromPmtSysfs sysfs with
  | .ok crashlog => (crashlog.regions.flatMap Region.records).Perm (pmtRecords devices)
  | .error _ => pmtRegions devices = []

/-! ## Visited endpoints -/

namespace PmtSysFs

variable {sysfs : SysFs} {devices : List PciDevice}

/-- The regions that a visit of the path adds. -/
def visit (sysfs : SysFs) (path : PathBuf) : List Region :=
  ((extract sysfs path).toOption.map CrashLog.regions).getD []

theorem visit_eq {path : PathBuf} {device : PmtEndpoint} (held : sysfs.Holds path device) :
    visit sysfs path = boxExpansion.run device.region.toList := by
  rw [visit, extract, held.read, PmtEndpoint.region]
  cases parsed : Region.fromSlice device.content with
  | error error => simp [parsed, Except.toOption, Bind.bind, Except.bind]
  | ok region => simp [parsed, Except.toOption, Bind.bind, Except.bind, CrashLog.from_regions_eq]

theorem visit_endpoint {path : PathBuf} {device : PmtEndpoint} (held : sysfs.Holds path device) :
    (endpoint sysfs path).toList.flatMap (visit sysfs) = boxExpansion.run device.region.toList := by
  rw [endpoint, held.isDir]
  simp [visit_eq held]

theorem run_flat_map {α : Type} (f : α → List Region) (items : List α) :
    boxExpansion.run (items.flatMap f) = items.flatMap fun item => boxExpansion.run (f item) := by
  induction items with
  | nil => simp
  | cons item rest ih => rw [List.flatMap_cons, Expansion.run_append, ih, List.flatMap_cons]

theorem pmt_regions_eq (devices : List PciDevice) :
    pmtRegions devices = (devices.flatMap PciDevice.endpoints).flatMap fun endpoint => endpoint.region.toList := by
  rw [pmtRegions, List.filterMap_eq_flatMap_toList]

variable [UnicodeTables]

/-- The class leads to every endpoint once. -/
theorem class_visits (shows : sysfs.Shows devices) :
    ((discoverFromClass sysfs {}).flatMap fun id => (getEndpoints sysfs {} id).flatMap (visit sysfs)).Perm
      (boxExpansion.run (pmtRegions devices)) := by
  have found := shows.links.flatMap_right fun name =>
    (endpoint sysfs (PathBuf.push (classPath {}) name)).toList.flatMap (visit sysfs)
  rw [List.flatMap_map] at found
  have visited : ((devices.flatMap PciDevice.endpoints).flatMap fun device =>
      (endpoint sysfs (PathBuf.push (classPath {}) device.name)).toList.flatMap (visit sysfs)) =
        boxExpansion.run (pmtRegions devices) := by
    rw [pmt_regions_eq, run_flat_map]
    exact List.flatMap_congr fun device member => visit_endpoint (shows.linked device member)
  rw [visited] at found
  rw [discoverFromClass, List.flatMap_map]
  exact found

/-- The PCI function of a listed device leads to each of its endpoints once. -/
theorem bdf_visits (shows : sysfs.Shows devices) {device : PciDevice} (listed : device ∈ devices)
    {bdf : PciBdf} (named : device.name = bdf.display) :
    (getEndpointsFromBdf sysfs {} bdf).flatMap (visit sysfs) =
      device.endpoints.flatMap fun endpoint => boxExpansion.run endpoint.region.toList := by
  have path : PathBuf.push (pciDevPath {}) bdf.display = device.path := by rw [PciDevice.path, named]
  rw [getEndpointsFromBdf, path, shows.vsecs device listed, List.flatMap_map, List.flatMap_assoc,
    PciDevice.endpoints, List.flatMap_assoc]
  apply List.flatMap_congr
  intro vsec vsecListed
  have below : PathBuf.push (PathBuf.push device.path vsec.name) "intel_pmt" = device.vsecPath vsec := rfl
  rw [getEndpointsFromVsec, below, shows.endpoints device listed vsec vsecListed,
    List.filterMap_eq_flatMap_toList, List.flatMap_map, List.flatMap_assoc]
  exact List.flatMap_congr fun endpoint member => visit_endpoint (shows.holds device listed vsec vsecListed endpoint member)

theorem bdf_visits_nothing (shows : sysfs.Shows devices) {bdf : PciBdf}
    (unlisted : bdf.display ∉ devices.map PciDevice.name) :
    (getEndpointsFromBdf sysfs {} bdf).flatMap (visit sysfs) = [] := by
  rw [getEndpointsFromBdf, SysFs.names, shows.absent bdf unlisted]
  rfl

theorem mem_discover_from_pci {bdf : PciBdf} :
    PmtDeviceId.bdf bdf ∈ discoverFromPci sysfs {} ↔ ∃ filename ∈ sysfs.names (pciDevPath {}),
      PciBdf.fromStr filename = some bdf ∧
        hasCrashlogVsec sysfs (PathBuf.push (pciDevPath {}) filename) = true := by
  simp only [discoverFromPci, List.mem_map, PmtDeviceId.bdf.injEq, exists_eq_right, PciBdf.mem_set,
    List.mem_filterMap, Option.bind_eq_some_iff, Option.ite_none_right_eq_some, Option.some.injEq]
  constructor
  · rintro ⟨filename, member, found, parsed, vsec, rfl⟩
    exact ⟨filename, member, parsed, vsec⟩
  · rintro ⟨filename, member, parsed, vsec⟩
    exact ⟨filename, member, bdf, parsed, vsec, rfl⟩

/-- The PCI functions lead to a region exactly when the device of one has the
name that is shown for it. -/
theorem pci_visits_nothing_iff (shows : sysfs.Shows devices) :
    ((discoverFromPci sysfs {}).flatMap fun id => (getEndpoints sysfs {} id).flatMap (visit sysfs)) = [] ↔
      ∀ device ∈ devices, ∀ bdf : PciBdf, device.name = bdf.display →
        ∀ endpoint ∈ device.endpoints, endpoint.region = none := by
  rw [List.flatMap_eq_nil_iff]
  constructor
  · intro nothing device listed bdf named endpoint member
    obtain ⟨vsec, vsecListed, _⟩ := List.mem_flatMap.mp member
    have shown : hasCrashlogVsec sysfs device.path = true := by
      have entry : vsec.name ∈ device.vsecs.map PmtVsec.name := List.mem_map_of_mem vsecListed
      rw [← shows.vsecs device listed, List.mem_filter] at entry
      exact List.any_eq_true.mpr ⟨vsec.name, entry⟩
    have discovered : PmtDeviceId.bdf bdf ∈ discoverFromPci sysfs {} := by
      refine mem_discover_from_pci.mpr ⟨device.name, ?_, ?_, shown⟩
      · rw [shows.pci]
        exact List.mem_map_of_mem listed
      · rw [named, PciBdf.from_str_display]
    have unvisited := nothing _ discovered
    rw [getEndpoints, bdf_visits shows listed named, List.flatMap_eq_nil_iff] at unvisited
    cases stored : endpoint.region with
    | none => rfl
    | some region =>
        have own := unvisited endpoint member
        rw [stored, Option.toList_some, Expansion.run_cons] at own
        cases own
  · intro nothing id discovered
    obtain ⟨bdf, _, rfl⟩ := List.mem_map.mp discovered
    rw [getEndpoints]
    by_cases listed : bdf.display ∈ devices.map PciDevice.name
    · obtain ⟨device, member, named⟩ := List.mem_map.mp listed
      rw [bdf_visits shows member named, List.flatMap_eq_nil_iff]
      intro endpoint inside
      rw [nothing device member bdf named endpoint inside, Option.toList_none, Expansion.run_nil]
    · exact bdf_visits_nothing shows listed

/-- The regions of all visits, the class first. -/
theorem all_visits (sysfs : SysFs) :
    ((getAllEndpoints sysfs {}).filterMap fun dev => (extract sysfs dev).toOption).flatMap CrashLog.regions =
      ((discoverFromClass sysfs {}).flatMap fun id => (getEndpoints sysfs {} id).flatMap (visit sysfs)) ++
        (discoverFromPci sysfs {}).flatMap fun id => (getEndpoints sysfs {} id).flatMap (visit sysfs) := by
  have visits : ∀ paths : List PathBuf, (paths.filterMap fun dev => (extract sysfs dev).toOption).flatMap
      CrashLog.regions = paths.flatMap (visit sysfs) := by
    intro paths
    induction paths with
    | nil => rfl
    | cons path rest ih =>
        rw [List.filterMap_cons, List.flatMap_cons, visit]
        cases (extract sysfs path).toOption <;> simp [ih]
  rw [visits, getAllEndpoints, discover, List.flatMap_append, List.flatMap_append, List.flatMap_assoc,
    List.flatMap_assoc]

end PmtSysFs

/-! ## Counting records -/

/-- A region has records. -/
def Region.Populated (region : Region) : Prop := region.records ≠ []

theorem populated_of_from_slice {bytes : List Byte} {region : Region} (read : Region.fromSlice bytes = .ok region) :
    region.Populated := (Region.from_slice_eq_ok_iff.mp read).2

theorem populated_boxed {region child : Region} (member : child ∈ boxExpansion.children region) :
    child.Populated := by
  obtain ⟨record, _, boxed⟩ := List.mem_filterMap.mp (List.mem_reverse.mp member)
  obtain ⟨_, payload, inner, _, read, rfl⟩ := boxed_region_eq_some_iff.mp boxed
  have records := populated_of_from_slice read
  simpa [Region.Populated, Region.setChildContext] using records

theorem populated_run {regions : List Region} (populated : ∀ region ∈ regions, region.Populated) :
    ∀ region ∈ boxExpansion.run regions, region.Populated :=
  boxExpansion.run_induction Region.Populated populated fun _ _ _ member => populated_boxed member

theorem eq_nil_of_no_records {regions : List Region} (populated : ∀ region ∈ regions, region.Populated)
    (none : (regions.flatMap Region.records).length = 0) : regions = [] := by
  cases regions with
  | nil => rfl
  | cons region rest =>
      rw [List.flatMap_cons, List.length_append] at none
      exact absurd (List.eq_nil_of_length_eq_zero (by omega)) (populated region List.mem_cons_self)

/-- Draining a queue twice, with more regions in it the second time, adds no
record exactly when there are no more regions and no boxes. -/
theorem drained_twice_iff {stored first more : List Region}
    (populated : ∀ region ∈ more, region.Populated) (once : first.Perm (boxExpansion.run stored)) :
    ((boxExpansion.run (first ++ more)).flatMap Region.records).Perm
        ((boxExpansion.run stored).flatMap Region.records) ↔
      more = [] ∧ ∀ region ∈ stored, boxedRegions region = [] := by
  have whole := (boxExpansion.run_perm (first ++ more)).flatMap_right Region.records
  rw [List.flatMap_append, List.flatMap_append] at whole
  constructor
  · intro same
    have sizes := whole.length_eq
    have firstSize := (once.flatMap_right Region.records).length_eq
    rw [List.length_append, List.length_append, same.length_eq, firstSize] at sizes
    have noMore := eq_nil_of_no_records populated (by omega)
    have children : ∀ region ∈ (boxExpansion.run (first ++ more)).flatMap boxExpansion.children,
        region.Populated := by
      intro region member
      obtain ⟨parent, _, child⟩ := List.mem_flatMap.mp member
      exact populated_boxed child
    have noChildren := List.flatMap_eq_nil_iff.mp (eq_nil_of_no_records children (by omega))
    refine ⟨noMore, fun region member => ?_⟩
    have drained := once.mem_iff.mpr (boxExpansion.mem_run_of_mem member)
    exact List.reverse_eq_nil_iff.mp
      (noChildren region (boxExpansion.mem_run_of_mem (List.mem_append_left _ drained)))
  · rintro ⟨rfl, childless⟩
    have plain : ∀ region ∈ stored, boxExpansion.children region = [] := fun region member =>
      List.reverse_eq_nil_iff.mpr (childless region member)
    rw [boxExpansion.run_eq_self plain] at once ⊢
    rw [List.append_nil, boxExpansion.run_eq_self fun region member => plain region (once.mem_iff.mp member)]
    exact once.flatMap_right _

/-! ## The whole extraction -/

theorem pmt_records_perm (devices : List PciDevice) :
    (pmtRecords devices).Perm ((boxExpansion.run (pmtRegions devices)).flatMap Region.records) :=
  (Expansion.mirrored_perm (fun _ => rfl) (pmtRegions devices)).flatMap_right _

theorem populated_visit {sysfs : SysFs} {path : PathBuf} :
    ∀ region ∈ PmtSysFs.visit sysfs path, region.Populated := by
  intro region member
  rw [PmtSysFs.visit] at member
  cases extracted : PmtSysFs.extract sysfs path with
  | error error =>
      rw [extracted] at member
      cases member
  | ok crashlog =>
      rw [extracted] at member
      rw [PmtSysFs.extract] at extracted
      split at extracted
      · cases extracted
      · obtain ⟨stored, read, built⟩ := except_bind_eq_ok.mp extracted
        rw [CrashLog.from_regions_eq, if_neg (List.cons_ne_nil _ _), Except.ok.injEq] at built
        subst built
        exact populated_run (fun other single => List.mem_singleton.mp single ▸ populated_of_from_slice read)
          region member

theorem mem_pmt_regions {devices : List PciDevice} {region : Region} :
    region ∈ pmtRegions devices ↔
      ∃ device ∈ devices, ∃ endpoint ∈ device.endpoints, Region.fromSlice endpoint.content = .ok region := by
  simp only [pmtRegions, List.mem_filterMap, List.mem_flatMap, PmtEndpoint.region, except_to_option_eq_some]
  constructor
  · rintro ⟨endpoint, ⟨device, listed, member⟩, read⟩
    exact ⟨device, listed, endpoint, member, read⟩
  · rintro ⟨device, listed, endpoint, member, read⟩
    exact ⟨endpoint, ⟨device, listed, member⟩, read⟩

theorem region_eq_none_iff {endpoint : PmtEndpoint} :
    endpoint.region = none ↔ ∀ region, Region.fromSlice endpoint.content ≠ .ok region := by
  simp only [PmtEndpoint.region, Option.eq_none_iff_forall_ne_some, ne_eq, except_to_option_eq_some]

/-- Every record is extracted exactly once if and only if no endpoint with a
region belongs to a PCI function that is found by its own name, and no region
has boxes. -/
theorem extracted_once_iff [UnicodeTables] (sysfs : SysFs) (devices : List PciDevice)
    (shows : sysfs.Shows devices) :
    ExtractedOnce sysfs devices ↔ ∀ device ∈ devices, ∀ endpoint ∈ device.endpoints, ∀ region,
      Region.fromSlice endpoint.content = .ok region →
        (∀ bdf : PciBdf, device.name ≠ bdf.display) ∧ boxedRegions region = [] := by
  let first := (PmtSysFs.discoverFromClass sysfs {}).flatMap fun id =>
    (PmtSysFs.getEndpoints sysfs {} id).flatMap (PmtSysFs.visit sysfs)
  let more := (PmtSysFs.discoverFromPci sysfs {}).flatMap fun id =>
    (PmtSysFs.getEndpoints sysfs {} id).flatMap (PmtSysFs.visit sysfs)
  have once : first.Perm (boxExpansion.run (pmtRegions devices)) := PmtSysFs.class_visits shows
  have populated : ∀ region ∈ more, region.Populated := by
    intro region member
    obtain ⟨id, _, below⟩ := List.mem_flatMap.mp member
    obtain ⟨path, _, visited⟩ := List.mem_flatMap.mp below
    exact populated_visit region visited
  have extracted : ExtractedOnce sysfs devices ↔
      more = [] ∧ ∀ region ∈ pmtRegions devices, boxedRegions region = [] := by
    rw [← drained_twice_iff populated once, ExtractedOnce, CrashLog.fromPmtSysfs, PmtSysFs.all_visits,
      CrashLog.from_regions_eq]
    by_cases empty : first ++ more = []
    · have none : pmtRegions devices = [] := by
        rw [(List.append_eq_nil_iff.mp empty).1] at once
        exact CrashLog.run_eq_nil_iff.mp once.symm.eq_nil
      rw [if_pos empty, empty, none]
      simp
    · rw [if_neg empty]
      exact ⟨fun same => same.trans (pmt_records_perm devices), fun same => same.trans (pmt_records_perm devices).symm⟩
  rw [extracted, PmtSysFs.pci_visits_nothing_iff shows]
  constructor
  · rintro ⟨unfound, childless⟩ device listed endpoint member region read
    refine ⟨fun bdf named => ?_, childless region (mem_pmt_regions.mpr ⟨device, listed, endpoint, member, read⟩)⟩
    exact region_eq_none_iff.mp (unfound device listed bdf named endpoint member) region read
  · intro unique
    refine ⟨fun device listed bdf named endpoint member => ?_, fun region stored => ?_⟩
    · exact region_eq_none_iff.mpr fun region read => (unique device listed endpoint member region read).1 bdf named
    · obtain ⟨device, listed, endpoint, member, read⟩ := mem_pmt_regions.mp stored
      exact (unique device listed endpoint member region read).2

/-! ## A single device -/

namespace PmtSysFs

def machineCheckBytes : List Byte := [0x08, 0xa1, 0x07, 0x3e, 2, 0, 0, 0]

/-- One PCI function with one PMT device. -/
def singleDevice (name : String) : PciDevice where
  name := name
  vsecs := [{ name := "intel_vsec.crashlog.42", endpoints := [{ name := "crashlog0", content := machineCheckBytes }] }]

/-- What Linux shows of the device. -/
def singleSysFs (name : String) : SysFs where
  readDir path :=
    if path = "/sys/class/intel_pmt" then some [some "crashlog0", some "telem1"]
    else if path = "/sys/bus/pci/devices" then some [some name]
    else if path = "/sys/bus/pci/devices/" ++ name then some [some "config", some "intel_vsec.crashlog.42"]
    else if path = "/sys/bus/pci/devices/" ++ name ++ "/intel_vsec.crashlog.42/intel_pmt" then some [some "crashlog0"]
    else none
  isDir path := path = "/sys/class/intel_pmt/crashlog0" ||
    path = "/sys/bus/pci/devices/" ++ name ++ "/intel_vsec.crashlog.42/intel_pmt/crashlog0"
  read path :=
    if path = "/sys/class/intel_pmt/crashlog0/crashlog" ||
      path = "/sys/bus/pci/devices/" ++ name ++ "/intel_vsec.crashlog.42/intel_pmt/crashlog0/crashlog" then
      .ok machineCheckBytes
    else .error "No such file or directory"

theorem not_mem_display (bdf : PciBdf) : '/' ∉ bdf.display.toList := by
  have digits : ∀ width value, '/' ∉ (Text.hex width value).toList := Text.not_mem_hex (by decide)
  simp [PciBdf.display, digits]

theorem push_display (bdf : PciBdf) :
    PathBuf.push (pciDevPath {}) bdf.display = "/sys/bus/pci/devices/" ++ bdf.display := by
  have relative : PathBuf.isAbsolute bdf.display = false := by
    rw [PathBuf.isAbsolute, beq_eq_false_iff_ne]
    intro slash
    exact not_mem_display bdf (List.mem_of_head? slash)
  have base : pciDevPath {} = "/sys/bus/pci/devices" := by decide
  rw [PathBuf.push, relative, base]
  rfl

/-- Nothing is shown of other functions. -/
theorem single_absent {name : String} {bdf : PciBdf} (other : bdf.display ≠ name) :
    (singleSysFs name).readDir (PathBuf.push (pciDevPath {}) bdf.display) = none := by
  have notClass : "/sys/bus/pci/devices/" ++ bdf.display ≠ "/sys/class/intel_pmt" := by
    intro same
    have fifth := congrArg (fun text => text.toList[5]?) same
    simp at fifth
  have notBus : "/sys/bus/pci/devices/" ++ bdf.display ≠ "/sys/bus/pci/devices" := by
    intro same
    have sizes := congrArg (fun text => text.toList.length) same
    simp at sizes
  have notDevice : "/sys/bus/pci/devices/" ++ bdf.display ≠ "/sys/bus/pci/devices/" ++ name := by
    intro same
    exact other ((String.append_right_inj _).mp same)
  have notVsec : "/sys/bus/pci/devices/" ++ bdf.display ≠
      "/sys/bus/pci/devices/" ++ name ++ "/intel_vsec.crashlog.42/intel_pmt" := by
    intro same
    rw [String.append_assoc, String.append_right_inj] at same
    have inside := not_mem_display bdf
    rw [same, String.toList_append] at inside
    exact inside (List.mem_append_right _ (by decide))
  rw [push_display, singleSysFs]
  simp only [notClass, notBus, notDevice, notVsec, if_false]

theorem single_shown {name : String} (known : name = "0000:00:1f.5" ∨ name = "10000:e0:06.0") :
    @SysFs.Shows .ascii (singleSysFs name) [singleDevice name] := by
  have held : ∀ {path : PathBuf} {device : PmtEndpoint}, device.content = machineCheckBytes →
      (singleSysFs name).isDir path = true →
        (singleSysFs name).read (PathBuf.push path "crashlog") = .ok machineCheckBytes →
          (singleSysFs name).Holds path device := by
    intro path device content isDir read
    exact ⟨isDir, by rw [read, content]⟩
  have only : ∀ device ∈ [singleDevice name], device = singleDevice name := fun _ => List.mem_singleton.mp
  refine @SysFs.Shows.mk .ascii _ _ ?_ ?_ ?_ ?_ ?_ ?_ ?_
  · rcases known with rfl | rfl <;> decide
  · intro bdf unlisted
    exact single_absent fun same => unlisted (by simp [singleDevice, same])
  · rcases known with rfl | rfl <;> decide
  · rcases known with rfl | rfl <;> decide
  · intro device listed vsec inside endpoint member
    obtain rfl := only device listed
    obtain rfl := List.mem_singleton.mp inside
    obtain rfl := List.mem_singleton.mp member
    refine held rfl ?_ ?_
    · rcases known with rfl | rfl <;> decide
    · rcases known with rfl | rfl <;> decide
  · rcases known with rfl | rfl <;> decide
  · intro endpoint member
    obtain rfl : endpoint = { name := "crashlog0", content := machineCheckBytes } := by
      simpa [singleDevice, PciDevice.endpoints] using member
    refine held rfl ?_ ?_
    · rcases known with rfl | rfl <;> decide
    · rcases known with rfl | rfl <;> decide

/-- A function of a segment with more than 16 bits is not found by its name. -/
theorem wide_segment_extracted_once :
    @ExtractedOnce .ascii (singleSysFs "10000:e0:06.0") [singleDevice "10000:e0:06.0"] := by
  refine (@extracted_once_iff .ascii (singleSysFs "10000:e0:06.0") [singleDevice "10000:e0:06.0"]
    (single_shown (.inr rfl))).2 ?_
  intro device listed endpoint member region read
  obtain rfl := List.mem_singleton.mp listed
  obtain rfl : endpoint = { name := "crashlog0", content := machineCheckBytes } := by
    simpa [singleDevice, PciDevice.endpoints] using member
  constructor
  · intro bdf named
    have unread : PciBdf.fromStr "10000:e0:06.0" = none := by decide
    rw [show "10000:e0:06.0" = bdf.display from named, PciBdf.from_str_display] at unread
    cases unread
  · have plain : (Region.fromSlice machineCheckBytes).toOption.map boxedRegions = some [] := by decide +kernel
    rw [read] at plain
    exact Option.some.inj plain

/-- The record of a common PCI function is extracted twice. -/
theorem common_function_extracted_twice : ¬ ∀ (_ : UnicodeTables) (sysfs : SysFs) (devices : List PciDevice),
    sysfs.Shows devices → ExtractedOnce sysfs devices := by
  intro once
  have extracted := once .ascii (singleSysFs "0000:00:1f.5") [singleDevice "0000:00:1f.5"] (single_shown (.inl rfl))
  have twice : (@CrashLog.fromPmtSysfs .ascii (singleSysFs "0000:00:1f.5")).toOption.map
      (fun crashlog => (crashlog.regions.flatMap Region.records).length) = some 2 := by
    decide +kernel
  have stored : (pmtRecords [singleDevice "0000:00:1f.5"]).length = 1 := by decide +kernel
  unfold ExtractedOnce at extracted
  split at extracted
  · next crashlog built =>
      rw [built] at twice
      have sizes := extracted.length_eq
      rw [stored] at sizes
      have two : (crashlog.regions.flatMap Region.records).length = 2 := Option.some.inj twice
      omega
  · next error built =>
      rw [built] at twice
      cases twice

end PmtSysFs

end Crashlog
