import Crashlog.Attempt
import Crashlog.SourceNames
import Mathlib.Data.List.ReduceOption

/-!
# Control commands

The collection of Crash Logs is controlled through files of the PMT endpoints:
a command writes to one file of each endpoint of each of its sources and stops
at the first failure. The devices do not change through that, so a command is
one loop over files that are known before it starts, and after any number of
commands a file is set to what the last command wrote to it.
-/

namespace Crashlog

open Bytes

/-- The errors that a control command ends with. -/
inductive ControlError where
  | unsupported
  | ioError (message : String)
  deriving DecidableEq, Repr

inductive Capability where
  | extract
  | trigger
  | enableDisable
  | clear
  deriving DecidableEq, Repr

/-- The devices of the platform with the files that control them. A write
opens the file for writing, truncates it and writes the whole value. -/
structure Devices (State : Type) where
  sysfs : State → SysFs
  pathExists : State → PathBuf → Bool
  write : State → PathBuf → List Byte → Except String Unit × State

namespace PmtSysFsEndpoint

variable {State : Type} (devices : Devices State)

def writeCommand (entry : String) (value : List Byte) (path : PathBuf) : Attempt State ControlError := fun state =>
  match devices.write state (PathBuf.push path entry) value with
  | (.ok (), next) => (.ok (), next)
  | (.error message, next) => (.error (.ioError message), next)

def trigger : PathBuf → Attempt State ControlError := writeCommand devices "trigger" [0x31]

def clear : PathBuf → Attempt State ControlError := writeCommand devices "clear" [0x31]

def enableDisable (enable : Bool) : PathBuf → Attempt State ControlError :=
  writeCommand devices "enable" (if enable then [0x31] else [0x30])

/-- A set, in the order of its elements. -/
def capabilities (state : State) (path : PathBuf) : List Capability :=
  (if devices.pathExists state (PathBuf.push path "crashlog") then [.extract] else []) ++
    (if devices.pathExists state (PathBuf.push path "trigger") then [.trigger] else []) ++
      (if devices.pathExists state (PathBuf.push path "enable") then [.enableDisable] else []) ++
        (if devices.pathExists state (PathBuf.push path "clear") then [.clear] else [])

end PmtSysFsEndpoint

namespace Pmt

variable [UnicodeTables] {State : Type} (devices : Devices State) (platform : Platform)

def eachEndpoint (action : PathBuf → Attempt State ControlError) (dev : PmtDeviceId) : Attempt State ControlError :=
  fun state =>
    match platform with
    | .linux => Attempt.forEach action (PmtSysFs.getEndpoints (devices.sysfs state) {} dev) state
    | _ => Attempt.fail .unsupported state

def enableDisable (enable : Bool) : PmtDeviceId → Attempt State ControlError :=
  eachEndpoint devices platform (PmtSysFsEndpoint.enableDisable devices enable)

def clear : PmtDeviceId → Attempt State ControlError :=
  eachEndpoint devices platform (PmtSysFsEndpoint.clear devices)

def trigger : PmtDeviceId → Attempt State ControlError :=
  eachEndpoint devices platform (PmtSysFsEndpoint.trigger devices)

/-- The union of the sets of the endpoints. -/
def capabilities (state : State) (dev : PmtDeviceId) : List Capability :=
  match platform with
  | .linux =>
      let sets := (PmtSysFs.getEndpoints (devices.sysfs state) {} dev).map (PmtSysFsEndpoint.capabilities devices state)
      [.extract, .trigger, .enableDisable, .clear].filter fun capability => sets.any (capability ∈ ·)
  | _ => []

end Pmt

namespace CrashLogSource

variable [UnicodeTables] {State : Type} (devices : Devices State) (platform : Platform)

/-- Only PMT devices are controlled. -/
def control (action : PmtDeviceId → Attempt State ControlError) : CrashLogSource → Attempt State ControlError
  | .pmtDevice dev => action dev
  | _ => Attempt.fail .unsupported

def trigger : CrashLogSource → Attempt State ControlError := control (Pmt.trigger devices platform)

def clear : CrashLogSource → Attempt State ControlError := control (Pmt.clear devices platform)

def enable : CrashLogSource → Attempt State ControlError := control (Pmt.enableDisable devices platform true)

def disable : CrashLogSource → Attempt State ControlError := control (Pmt.enableDisable devices platform false)

def capabilities (state : State) : CrashLogSource → List Capability
  | .acpi => [.extract]
  | .eventLog => [.extract]
  | .pmtDevice dev => Pmt.capabilities devices platform state dev

end CrashLogSource

/-- The commands of the application that control the collection. -/
inductive Control where
  | enable
  | disable
  | trigger
  | clear
  deriving DecidableEq, Repr

structure Invocation where
  control : Control
  sources : List CrashLogSource

namespace App

variable [UnicodeTables] {State : Type} (devices : Devices State) (platform : Platform)

def controlCommand (sources : List CrashLogSource) (control : CrashLogSource → Attempt State ControlError) :
    Attempt State ControlError := Attempt.forEach control sources

def trigger (sources : List CrashLogSource) : Attempt State ControlError :=
  controlCommand sources (CrashLogSource.trigger devices platform)

def clear (sources : List CrashLogSource) : Attempt State ControlError :=
  controlCommand sources (CrashLogSource.clear devices platform)

def enable (sources : List CrashLogSource) : Attempt State ControlError :=
  controlCommand sources (CrashLogSource.enable devices platform)

def disable (sources : List CrashLogSource) : Attempt State ControlError :=
  controlCommand sources (CrashLogSource.disable devices platform)

def run (invocation : Invocation) : Attempt State ControlError :=
  match invocation.control with
  | .enable => enable devices platform invocation.sources
  | .disable => disable devices platform invocation.sources
  | .trigger => trigger devices platform invocation.sources
  | .clear => clear devices platform invocation.sources

/-- The application is invoked again and again, whatever it returned before. -/
def runAll (state : State) (invocations : List Invocation) : State :=
  invocations.foldl (fun state invocation => (run devices platform invocation state).2) state

end App

/-! ## What a command writes -/

namespace Control

def entry : Control → String
  | enable => "enable"
  | disable => "enable"
  | trigger => "trigger"
  | clear => "clear"

def value : Control → List Byte
  | disable => [0x30]
  | _ => [0x31]

def capability : Control → Capability
  | enable => .enableDisable
  | disable => .enableDisable
  | trigger => .trigger
  | clear => .clear

end Control

/-- Two views of one tree of directories. -/
def SysFs.SameTree (left right : SysFs) : Prop := left.readDir = right.readDir ∧ left.isDir = right.isDir

theorem PmtSysFs.get_endpoints_same [UnicodeTables] {left right : SysFs} (same : left.SameTree right) (pmt : PmtSysFs)
    (dev : PmtDeviceId) : getEndpoints left pmt dev = getEndpoints right pmt dev := by
  obtain ⟨readDir, isDir⟩ := same
  cases left
  cases right
  cases readDir
  cases isDir
  rfl

/-- What the files of devices do. Several paths may lead to one file. No write
makes a file or a directory, a write to a file sets that one only, and a file
that is missing cannot be written. -/
structure Devices.Lawful {State : Type} (devices : Devices State) {File : Type} (file : PathBuf → File)
    (setting : State → File → List Byte) : Prop where
  tree : ∀ state path value, (devices.sysfs (devices.write state path value).2).SameTree (devices.sysfs state)
  found : ∀ state path value, devices.pathExists (devices.write state path value).2 = devices.pathExists state
  missing : ∀ state path value, (devices.write state path value).1 = .ok () → devices.pathExists state path = true
  sets : ∀ state path value, (devices.write state path value).1 = .ok () →
    setting (devices.write state path value).2 (file path) = value
  others : ∀ state path value other, other ≠ file path →
    setting (devices.write state path value).2 other = setting state other

namespace Invocation

variable [UnicodeTables]

/-- The endpoints of a source; none stands for a source that is not controlled. -/
def endpointsOf (platform : Platform) (sysfs : SysFs) : CrashLogSource → List (Option PathBuf)
  | .pmtDevice dev =>
      match platform with
      | .linux => (PmtSysFs.getEndpoints sysfs {} dev).map some
      | _ => [none]
  | _ => [none]

def endpoints (platform : Platform) (sysfs : SysFs) (invocation : Invocation) : List (Option PathBuf) :=
  invocation.sources.flatMap (endpointsOf platform sysfs)

/-- The files that an invocation is to write. -/
def targets (platform : Platform) (sysfs : SysFs) (invocation : Invocation) : List PathBuf :=
  (invocation.endpoints platform sysfs).reduceOption.map fun endpoint =>
    PathBuf.push endpoint invocation.control.entry

omit [UnicodeTables] in
def visit {State : Type} (devices : Devices State) (control : Control) : Option PathBuf → Attempt State ControlError
  | none => Attempt.fail .unsupported
  | some endpoint => PmtSysFsEndpoint.writeCommand devices control.entry control.value endpoint

end Invocation

namespace App

variable [UnicodeTables] {State : Type} {devices : Devices State} {platform : Platform}

theorem run_sources (invocation : Invocation) :
    run devices platform invocation =
      Attempt.forEach (CrashLogSource.control (Pmt.eachEndpoint devices platform
        (PmtSysFsEndpoint.writeCommand devices invocation.control.entry invocation.control.value)))
        invocation.sources := by
  rcases invocation with ⟨control, sources⟩
  cases control <;> rfl

theorem source_visits (control : Control) (source : CrashLogSource) (state : State) :
    CrashLogSource.control (Pmt.eachEndpoint devices platform
        (PmtSysFsEndpoint.writeCommand devices control.entry control.value)) source state =
      Attempt.forEach (Invocation.visit devices control)
        (Invocation.endpointsOf platform (devices.sysfs state) source) state := by
  have refused : Attempt.fail ControlError.unsupported state =
      Attempt.forEach (Invocation.visit devices control) [none] state := rfl
  cases source with
  | acpi => exact refused
  | eventLog => exact refused
  | pmtDevice dev =>
      cases platform with
      | linux => rw [Invocation.endpointsOf, Attempt.for_each_map]; rfl
      | uefi => exact refused
      | windows => exact refused
      | other => exact refused

variable {File : Type} {file : PathBuf → File} {setting : State → File → List Byte}

omit [UnicodeTables] in
theorem write_command_after (entry : String) (value : List Byte) (path : PathBuf) (state : State) :
    (PmtSysFsEndpoint.writeCommand devices entry value path state).2 =
      (devices.write state (PathBuf.push path entry) value).2 := by
  unfold PmtSysFsEndpoint.writeCommand
  rcases devices.write state (PathBuf.push path entry) value with ⟨_ | _, next⟩ <;> rfl

omit [UnicodeTables] in
theorem write_command_returned {entry : String} {value : List Byte} {path : PathBuf} {state : State}
    (returned : (PmtSysFsEndpoint.writeCommand devices entry value path state).1 = .ok ()) :
    (devices.write state (PathBuf.push path entry) value).1 = .ok () := by
  unfold PmtSysFsEndpoint.writeCommand at returned
  rcases written : devices.write state (PathBuf.push path entry) value with ⟨_ | _, next⟩
  · rw [written] at returned
    cases returned
  · rfl

omit [UnicodeTables] in
/-- What the write to the file of an endpoint keeps. -/
theorem visit_keeps {control : Control} {endpoint : Option PathBuf} {P : State → Prop}
    (kept : ∀ path ∈ endpoint, ∀ state, P state →
      P (devices.write state (PathBuf.push path control.entry) control.value).2) :
    (Invocation.visit devices control endpoint).Keeps P := by
  intro state holds
  cases endpoint with
  | none => exact holds
  | some path =>
      rw [Invocation.visit, write_command_after]
      exact kept path rfl state holds

/-- The directories are those of the state that the user started from. -/
def TreeOf (devices : Devices State) (start state : State) : Prop :=
  (devices.sysfs state).SameTree (devices.sysfs start)

omit [UnicodeTables] in
theorem visit_keeps_tree (lawful : devices.Lawful file setting) (start : State) (control : Control)
    (endpoint : Option PathBuf) : (Invocation.visit devices control endpoint).Keeps (TreeOf devices start) := by
  refine visit_keeps fun path _ state same => ?_
  obtain ⟨readDir, isDir⟩ := lawful.tree state (PathBuf.push path control.entry) control.value
  exact ⟨readDir.trans same.1, isDir.trans same.2⟩

theorem endpoints_of_same {start state : State} (same : TreeOf devices start state) (source : CrashLogSource) :
    Invocation.endpointsOf platform (devices.sysfs state) source =
      Invocation.endpointsOf platform (devices.sysfs start) source := by
  cases source with
  | acpi => rfl
  | eventLog => rfl
  | pmtDevice dev => simp only [Invocation.endpointsOf, PmtSysFs.get_endpoints_same same]

/-- A command is one loop over endpoints that are known from the start. -/
theorem run_visits (lawful : devices.Lawful file setting) {start state : State} (same : TreeOf devices start state)
    (invocation : Invocation) :
    run devices platform invocation state =
      Attempt.forEach (Invocation.visit devices invocation.control)
        (invocation.endpoints platform (devices.sysfs start)) state := by
  rw [run_sources, Invocation.endpoints, ← Attempt.for_each_flat_map]
  refine Attempt.for_each_congr (P := TreeOf devices start) ?_ ?_ same
  · intro source _ between tree
    rw [source_visits]
    exact Attempt.Keeps.for_each (fun endpoint _ => visit_keeps_tree lawful start _ endpoint) between tree
  · intro source _ between tree
    rw [source_visits, endpoints_of_same tree]

theorem mem_targets {invocation : Invocation} {sysfs : SysFs} {path : PathBuf} :
    path ∈ invocation.targets platform sysfs ↔
      ∃ endpoint, some endpoint ∈ invocation.endpoints platform sysfs ∧
        PathBuf.push endpoint invocation.control.entry = path := by
  simp only [Invocation.targets, List.mem_map, List.reduceOption_mem_iff]

/-- What the writes of a command keep the command keeps, whatever it returns. -/
theorem run_keeps (lawful : devices.Lawful file setting) {start : State} {invocation : Invocation}
    {P : State → Prop} (kept : ∀ path ∈ invocation.targets platform (devices.sysfs start), ∀ state,
      P state → P (devices.write state path invocation.control.value).2)
    {state : State} (same : TreeOf devices start state) (holds : P state) :
    P (run devices platform invocation state).2 := by
  rw [run_visits lawful same]
  refine Attempt.Keeps.for_each (fun endpoint inside => visit_keeps ?_) state holds
  rintro path rfl between before
  exact kept _ (mem_targets.mpr ⟨path, inside, rfl⟩) between before

theorem run_tree (lawful : devices.Lawful file setting) {start state : State} (same : TreeOf devices start state)
    (invocation : Invocation) : TreeOf devices start (run devices platform invocation state).2 := by
  rw [run_visits lawful same]
  exact Attempt.Keeps.for_each (fun endpoint _ => visit_keeps_tree lawful start _ endpoint) state same

theorem run_all_keeps (lawful : devices.Lawful file setting) {start : State} {invocations : List Invocation}
    {P : State → Prop}
    (kept : ∀ invocation ∈ invocations, ∀ path ∈ invocation.targets platform (devices.sysfs start), ∀ state,
      P state → P (devices.write state path invocation.control.value).2)
    {state : State} (same : TreeOf devices start state) (holds : P state) :
    TreeOf devices start (runAll devices platform state invocations) ∧
      P (runAll devices platform state invocations) := by
  induction invocations generalizing state with
  | nil => exact ⟨same, holds⟩
  | cons invocation rest ih =>
      rw [List.forall_mem_cons] at kept
      exact ih kept.2 (run_tree lawful same invocation) (run_keeps lawful kept.1 same holds)

theorem run_all_tree (lawful : devices.Lawful file setting) (start : State) (invocations : List Invocation) :
    TreeOf devices start (runAll devices platform start invocations) :=
  (run_all_keeps (P := fun _ => True) lawful (fun _ _ _ _ _ _ => trivial) ⟨rfl, rfl⟩ trivial).1

end App

/-- The file is one of those that the invocation is to write. -/
def Invocation.Writes [UnicodeTables] {File : Type} (file : PathBuf → File) (platform : Platform) (sysfs : SysFs)
    (written : File) (invocation : Invocation) : Prop :=
  ∃ path ∈ invocation.targets platform sysfs, file path = written

namespace App

variable [UnicodeTables] {State : Type} {devices : Devices State} {platform : Platform} {File : Type}
  {file : PathBuf → File} {setting : State → File → List Byte}

theorem run_all_leaves (lawful : devices.Lawful file setting) {start state : State}
    (same : TreeOf devices start state) {invocations : List Invocation} {left : File}
    (unwritten : ∀ invocation ∈ invocations, ¬ invocation.Writes file platform (devices.sysfs start) left) :
    setting (runAll devices platform state invocations) left = setting state left := by
  refine (run_all_keeps (P := fun next => setting next left = setting state left) lawful ?_ same rfl).2
  intro invocation member path target next kept
  rw [lawful.others _ _ _ _ fun meets => unwritten invocation member ⟨path, target, meets.symm⟩, kept]

/-- A command that returns has set all of its files. -/
theorem run_sets (lawful : devices.Lawful file setting) {start state : State} (same : TreeOf devices start state)
    {invocation : Invocation} {written : File}
    (writes : invocation.Writes file platform (devices.sysfs start) written)
    (returned : (run devices platform invocation state).1 = .ok ()) :
    setting (run devices platform invocation state).2 written = invocation.control.value := by
  obtain ⟨path, target, rfl⟩ := writes
  obtain ⟨endpoint, inside, rfl⟩ := mem_targets.mp target
  rw [run_visits lawful same] at returned ⊢
  refine Attempt.for_each_brings
    (P := fun next => setting next (file (PathBuf.push endpoint invocation.control.entry)) =
      invocation.control.value) inside ?_ ?_ returned
  · intro next done
    rw [Invocation.visit, write_command_after]
    exact lawful.sets _ _ _ (write_command_returned done)
  · intro other _ next done holds
    cases other with
    | none => cases done
    | some path =>
        rw [Invocation.visit, write_command_after]
        by_cases meets : file (PathBuf.push endpoint invocation.control.entry) =
            file (PathBuf.push path invocation.control.entry)
        · rw [meets]
          exact lawful.sets _ _ _ (write_command_returned done)
        · rw [lawful.others _ _ _ _ meets, holds]

/-- After any commands, whatever they returned, a file that none of them
writes is set as before, and one that is written is set to what the last
command that writes it says, where that command returned. -/
theorem set_as_last_told (lawful : devices.Lawful file setting) (state : State) (invocations : List Invocation)
    (controlled : File) :
    ((∀ invocation ∈ invocations, ¬ invocation.Writes file platform (devices.sysfs state) controlled) →
      setting (runAll devices platform state invocations) controlled = setting state controlled) ∧
    ∀ before told after, invocations = before ++ told :: after →
      told.Writes file platform (devices.sysfs state) controlled →
      (∀ later ∈ after, ¬ later.Writes file platform (devices.sysfs state) controlled) →
      (run devices platform told (runAll devices platform state before)).1 = .ok () →
      setting (runAll devices platform state invocations) controlled = told.control.value := by
  refine ⟨run_all_leaves lawful ⟨rfl, rfl⟩, ?_⟩
  rintro before told after rfl writes later returned
  have tree : TreeOf devices state (runAll devices platform state before) := run_all_tree lawful state before
  have set := run_sets lawful tree writes returned
  rw [runAll, List.foldl_append, List.foldl_cons, ← runAll, ← runAll,
    run_all_leaves lawful (run_tree lawful tree told) later, set]

end App

/-! ## Devices with plain files -/

/-- Devices whose control files keep what is written to them; these files and
no others are there. -/
def plainDevices (sysfs : SysFs) (files : List PathBuf) : Devices (PathBuf → List Byte) where
  sysfs _ := sysfs
  pathExists _ path := decide (path ∈ files)
  write state path value :=
    if path ∈ files then (.ok (), Function.update state path value) else (.error "No such file or directory", state)

theorem plain_write_file (sysfs : SysFs) {files : List PathBuf} {path : PathBuf} (member : path ∈ files)
    (state : PathBuf → List Byte) (value : List Byte) :
    (plainDevices sysfs files).write state path value = (.ok (), Function.update state path value) := if_pos member

theorem plain_write_returned {sysfs : SysFs} {files : List PathBuf} {state : PathBuf → List Byte} {path : PathBuf}
    {value : List Byte} (returned : ((plainDevices sysfs files).write state path value).1 = .ok ()) :
    path ∈ files := by
  by_contra absent
  change (if path ∈ files then _ else _ : Except String Unit × _).1 = _ at returned
  rw [if_neg absent] at returned
  cases returned

theorem plain_devices_lawful (sysfs : SysFs) (files : List PathBuf) :
    (plainDevices sysfs files).Lawful id fun state path => state path where
  tree _ _ _ := ⟨rfl, rfl⟩
  found _ _ _ := rfl
  missing _ _ _ returned := decide_eq_true (plain_write_returned returned)
  sets state path value returned := by
    rw [plain_write_file sysfs (plain_write_returned returned)]
    exact Function.update_self path value state
  others state path value other apart := by
    by_cases member : path ∈ files
    · rw [plain_write_file sysfs member]
      exact Function.update_of_ne apart value state
    · exact congrFun (congrArg Prod.snd (if_neg member)) other

def oneEndpointTree : SysFs where
  readDir path := if path = "/sys/class/intel_pmt" then some [some "crashlog0"] else none
  isDir path := path = "/sys/class/intel_pmt/crashlog0"
  read _ := .ok []

/-- One endpoint that can be enabled and disabled but not triggered. -/
def oneEndpoint : Devices (PathBuf → List Byte) :=
  plainDevices oneEndpointTree ["/sys/class/intel_pmt/crashlog0/enable"]

theorem one_endpoint_lawful : oneEndpoint.Lawful id fun state path => state path := plain_devices_lawful _ _

def onEndpoint (control : Control) : Invocation := { control, sources := [.pmtDevice (.name "crashlog0")] }

/-- The trigger fails in between. -/
theorem one_endpoint_disabled :
    @App.runAll .ascii _ oneEndpoint .linux (fun _ => []) [onEndpoint .enable, onEndpoint .disable, onEndpoint .trigger]
      "/sys/class/intel_pmt/crashlog0/enable" = [0x30] := by
  refine (@App.set_as_last_told .ascii _ oneEndpoint .linux _ id _ one_endpoint_lawful (fun _ => [])
    [onEndpoint .enable, onEndpoint .disable, onEndpoint .trigger] "/sys/class/intel_pmt/crashlog0/enable").2
    [onEndpoint .enable] (onEndpoint .disable) [onEndpoint .trigger] rfl ?_ ?_ ?_
  · refine ⟨_, ?_, rfl⟩
    decide
  · rintro later member ⟨path, target, meets⟩
    rw [List.mem_singleton.mp member] at target
    revert path
    decide
  · decide

namespace App

variable [UnicodeTables] {State : Type} {devices : Devices State} {platform : Platform} {File : Type}
  {file : PathBuf → File} {setting : State → File → List Byte}

theorem run_all_found (lawful : devices.Lawful file setting) (state : State) (invocations : List Invocation) :
    devices.pathExists (runAll devices platform state invocations) = devices.pathExists state :=
  (run_all_keeps (P := fun next => devices.pathExists next = devices.pathExists state) lawful
    (fun _ _ path _ next kept => (lawful.found next path _).trans kept) ⟨rfl, rfl⟩ rfl).2

omit [UnicodeTables] in
theorem mem_capabilities {control : Control} {state : State} {endpoint : PathBuf}
    (found : devices.pathExists state (PathBuf.push endpoint control.entry) = true) :
    control.capability ∈ PmtSysFsEndpoint.capabilities devices state endpoint := by
  cases control <;> simp_all [PmtSysFsEndpoint.capabilities, Control.entry, Control.capability]

/-- A command that returns found its file at each endpoint of its sources. -/
theorem run_capable (lawful : devices.Lawful file setting) {start state : State} (same : TreeOf devices start state)
    {invocation : Invocation} (returned : (run devices platform invocation state).1 = .ok ())
    {source : CrashLogSource} (member : source ∈ invocation.sources) :
    ∃ dev, source = .pmtDevice dev ∧ ∀ endpoint ∈ PmtSysFs.getEndpoints (devices.sysfs start) {} dev,
      devices.pathExists state (PathBuf.push endpoint invocation.control.entry) = true := by
  rw [run_visits lawful same] at returned
  have visited {endpoint : Option PathBuf}
      (inside : endpoint ∈ Invocation.endpointsOf platform (devices.sysfs start) source) :
      ∃ between, devices.pathExists between = devices.pathExists state ∧
        (Invocation.visit devices invocation.control endpoint between).1 = .ok () := by
    refine Attempt.for_each_each (P := fun between => devices.pathExists between = devices.pathExists state)
      (List.mem_flatMap.mpr ⟨source, member, inside⟩) ?_ rfl returned
    intro other _
    refine visit_keeps fun path _ between kept => ?_
    rw [lawful.found, kept]
  cases source with
  | acpi =>
      obtain ⟨_, _, done⟩ := visited (List.mem_singleton.mpr rfl)
      cases done
  | eventLog =>
      obtain ⟨_, _, done⟩ := visited (List.mem_singleton.mpr rfl)
      cases done
  | pmtDevice dev =>
      refine ⟨dev, rfl, fun endpoint inside => ?_⟩
      cases platform with
      | linux =>
          obtain ⟨between, kept, done⟩ := visited (List.mem_map_of_mem inside)
          rw [← kept]
          exact lawful.missing _ _ _ (write_command_returned done)
      | uefi | windows | other =>
          obtain ⟨_, _, done⟩ := visited (List.mem_singleton.mpr rfl)
          cases done

theorem capabilities_same {start state : State} (same : TreeOf devices start state)
    (found : devices.pathExists state = devices.pathExists start) (source : CrashLogSource) :
    CrashLogSource.capabilities devices platform state source =
      CrashLogSource.capabilities devices platform start source := by
  have one : PmtSysFsEndpoint.capabilities devices state = PmtSysFsEndpoint.capabilities devices start := by
    unfold PmtSysFsEndpoint.capabilities
    rw [found]
  cases source with
  | acpi => rfl
  | eventLog => rfl
  | pmtDevice dev =>
      simp only [CrashLogSource.capabilities, Pmt.capabilities, PmtSysFs.get_endpoints_same same, one]

/-- The listed capabilities stay the same through any commands, and a command
returns only where all of its sources are PMT devices and each of their
endpoints has the capability listed. -/
theorem capabilities_stay (lawful : devices.Lawful file setting) (state : State) (invocations : List Invocation) :
    (∀ source, CrashLogSource.capabilities devices platform (runAll devices platform state invocations) source =
      CrashLogSource.capabilities devices platform state source) ∧
    ∀ before told after, invocations = before ++ told :: after →
      (run devices platform told (runAll devices platform state before)).1 = .ok () →
      ∀ source ∈ told.sources, ∃ dev, source = .pmtDevice dev ∧
        ∀ endpoint ∈ PmtSysFs.getEndpoints (devices.sysfs state) {} dev,
          told.control.capability ∈ PmtSysFsEndpoint.capabilities devices state endpoint := by
  have after (invocations : List Invocation) : TreeOf devices state (runAll devices platform state invocations) :=
    run_all_tree lawful state invocations
  refine ⟨capabilities_same (after invocations) (run_all_found lawful state invocations), ?_⟩
  rintro before told _ rfl returned source member
  obtain ⟨dev, isDevice, found⟩ := run_capable lawful (after before) returned member
  refine ⟨dev, isDevice, fun endpoint inside => mem_capabilities ?_⟩
  rw [← run_all_found lawful state before]
  exact found endpoint inside

end App

/-- The one endpoint lists that it can be disabled, as the command found. -/
theorem one_endpoint_capable :
    Capability.enableDisable ∈ PmtSysFsEndpoint.capabilities oneEndpoint (fun _ => [])
      "/sys/class/intel_pmt/crashlog0" := by
  obtain ⟨dev, isDevice, listed⟩ := (@App.capabilities_stay .ascii _ oneEndpoint .linux _ id _ one_endpoint_lawful
    (fun _ => []) [onEndpoint .trigger, onEndpoint .disable]).2 [onEndpoint .trigger] (onEndpoint .disable) [] rfl (by decide)
    (.pmtDevice (.name "crashlog0")) (List.mem_singleton.mpr rfl)
  cases isDevice
  exact listed _ (List.mem_singleton.mpr rfl)

end Crashlog
