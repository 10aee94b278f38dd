import Crashlog.MachineChecks

/-!
# Banks in their places

The analyzer reports the expected machine checks exactly when the banks are
where it looks for them: below an `mca` record no bank that was not captured
hides another one, and in a core record the banks are the children of
`thread.arch_state.mca` of a core.
-/

namespace Crashlog

open Node

/-- No node on the way to the path is a bank with a status that was captured. -/
def OutsideReadBanks (record : Node) (path : List String) : Prop :=
  ∀ front, front ≠ [] → front <+: path → front ≠ path →
    ∀ middle, record.walk front = some middle → Bank.fromNode middle = none

/-- The path is a child of `thread.arch_state.mca` of the first node on the
way that has a `thread`. -/
def AtThread (record : Node) (path : List String) : Prop :=
  ∃ front core key, path = front ++ (Analyzer.threadMca ++ [key]) ∧
    First Analyzer.threadStop record front core

/-- The places where a record has its valid machine checks. -/
structure RecordInPlace [UnicodeTables] (record : Node) : Prop where
  mca : recordName record ∈ mcaNames → ∀ path node tag, path ≠ [] → record.walk path = some node →
    MachineCheckAt node tag → OutsideReadBanks record path → OutsideBanks record path
  core : recordName record ∈ coreNames → ∀ path node tag, path ≠ [] → record.walk path = some node →
    MachineCheckAt node tag → (OutsideBanks record path ↔ AtThread record path)

def BanksInPlace [UnicodeTables] (tree : Node) : Prop :=
  ∀ front record, First recordStop tree front record → RecordInPlace record

/-- The machine checks of the report come from the expected nodes, one from each. -/
structure ReportsEachOnce [UnicodeTables] [BinaryHeap] (tree : Node) : Prop where
  report : ((Analyzer.analyze [tree]).filter Tag.isMachineCheck).Perm
    ((Analyzer.origins tree).map Prod.snd)
  once : ((Analyzer.origins tree).map Prod.fst).Nodup
  expected : ∀ path tag, (path, tag) ∈ Analyzer.origins tree ↔ Expected tree path tag

namespace Analyzer

section Exact

variable {record tree : Node} {path : List String} {tag : Tag}

theorem outside_read_banks (outside : OutsideBanks record path) : OutsideReadBanks record path :=
  fun front nonempty inside apart middle walked =>
    Bank.from_node_eq_none (outside front nonempty inside apart middle walked)

theorem reported_mca_iff (ordered : record.Ordered) :
    (path, tag) ∈ mcaOrigins record ↔
      path ≠ [] ∧ (∃ node, record.walk path = some node ∧ MachineCheckAt node tag) ∧
        OutsideReadBanks record path := by
  rw [mem_mca_origins_iff ordered]
  constructor
  · rintro ⟨bank, first, valid⟩
    obtain ⟨node, walked, read⟩ := first.reached
    refine ⟨first.nonempty, ⟨node, walked, ?_⟩, first.passed⟩
    rw [Bank.machine_check_at_iff, read, Option.bind_some, valid]
  · rintro ⟨nonempty, ⟨node, walked, check⟩, outside⟩
    obtain ⟨bank, read, valid⟩ := Option.bind_eq_some_iff.mp (Bank.machine_check_at_iff.mp check)
    exact ⟨bank, ⟨nonempty, ⟨node, walked, read⟩, outside⟩, valid⟩

theorem reported_core_iff (ordered : record.Ordered) :
    (path, tag) ∈ coreOrigins record ↔
      (∃ node, record.walk path = some node ∧ MachineCheckAt node tag) ∧ AtThread record path := by
  rw [coreOrigins, mem_extend_iff ordered]
  constructor
  · rintro ⟨front, rest, core, rfl, first, member⟩
    have coreOrdered := ordered_of_first ordered thread_stop_self first
    obtain ⟨key, node, rfl, walked, valid⟩ := (mem_core_mca_origins_iff coreOrdered).mp member
    refine ⟨⟨node, ?_, Bank.machine_check_at_iff.mpr valid⟩, front, core, key, rfl, first⟩
    rw [Node.walk_append, walk_of_first thread_stop_self first, Option.bind_some, walked]
  · rintro ⟨⟨node, walked, check⟩, front, core, key, rfl, first⟩
    have coreOrdered := ordered_of_first ordered thread_stop_self first
    rw [Node.walk_append, walk_of_first thread_stop_self first, Option.bind_some] at walked
    exact ⟨front, threadMca ++ [key], core, rfl, first, (mem_core_mca_origins_iff coreOrdered).mpr
      ⟨key, node, rfl, walked, Bank.machine_check_at_iff.mp check⟩⟩

variable [UnicodeTables]

/-- One record. -/
theorem record_exact_iff (ordered : record.Ordered) (named : recordName record ∈ mcaNames ++ coreNames) :
    (∀ path tag, (path, tag) ∈ recordOrigins record ↔ ExpectedBelow record path tag) ↔
      RecordInPlace record := by
  rcases List.mem_append.mp named with mca | core
  · simp only [record_origins_of_mca mca, reported_mca_iff ordered]
    constructor
    · intro exactly
      refine ⟨fun _ path node tag nonempty walked check outside => ?_, fun core => absurd mca (core_is_no_mca core)⟩
      exact ((exactly path tag).mp ⟨nonempty, ⟨node, walked, check⟩, outside⟩).outside
    · intro inPlace path tag
      constructor
      · rintro ⟨nonempty, ⟨node, walked, check⟩, outside⟩
        exact ⟨nonempty, ⟨node, walked, check⟩, inPlace.mca mca path node tag nonempty walked check outside⟩
      · exact fun expected => ⟨expected.nonempty, expected.valid, outside_read_banks expected.outside⟩
  · simp only [record_origins_of_core core, reported_core_iff ordered]
    constructor
    · intro exactly
      refine ⟨fun mca => absurd mca (core_is_no_mca core), fun _ path node tag nonempty walked check => ?_⟩
      constructor
      · exact fun outside => ((exactly path tag).mpr ⟨nonempty, ⟨node, walked, check⟩, outside⟩).2
      · exact fun thread => ((exactly path tag).mp ⟨⟨node, walked, check⟩, thread⟩).outside
    · intro inPlace path tag
      constructor
      · rintro ⟨⟨node, walked, check⟩, thread⟩
        have nonempty : path ≠ [] := by
          obtain ⟨front, core, key, rfl, _⟩ := thread
          simp
        exact ⟨nonempty, ⟨node, walked, check⟩,
          (inPlace.core core path node tag nonempty walked check).mpr thread⟩
      · intro expected
        obtain ⟨node, walked, check⟩ := expected.valid
        exact ⟨⟨node, walked, check⟩,
          (inPlace.core core path node tag expected.nonempty walked check).mp expected.outside⟩

/-- Below an outermost record the tree is reported and expected as the record is. -/
theorem below_record_iff (ordered : tree.Ordered) {front : List String}
    (first : First recordStop tree front record) (named : recordName record ∈ mcaNames ++ coreNames)
    (path : List String) (tag : Tag) :
    ((front ++ path, tag) ∈ origins tree ↔ (path, tag) ∈ recordOrigins record) ∧
      (Expected tree (front ++ path) tag ↔ ExpectedBelow record path tag) := by
  have own {other : Node} {otherFront rest : List String} (same : front ++ path = otherFront ++ rest)
      (otherFirst : First recordStop tree otherFront other) : rest = path ∧ other = record := by
    have otherInside : otherFront <+: front ++ path := by
      rw [same]
      exact List.prefix_append _ _
    obtain ⟨rfl, rfl⟩ := first_unique otherFirst first otherInside (List.prefix_append _ _)
    exact ⟨(List.append_cancel_left same).symm, rfl⟩
  constructor
  · rw [origins, mem_extend_iff ordered]
    constructor
    · rintro ⟨otherFront, rest, other, same, otherFirst, member⟩
      obtain ⟨rfl, rfl⟩ := own same otherFirst
      exact member
    · exact fun member => ⟨front, path, record, rfl, first, member⟩
  · constructor
    · rintro ⟨otherFront, other, rest, same, otherFirst, _, below⟩
      obtain ⟨rfl, rfl⟩ := own same otherFirst
      exact below
    · exact fun below => ⟨front, record, path, rfl, first, named, below⟩

/-- Every valid machine check is reported once, and nothing else is, exactly
when the banks are where the analyzer looks for them. -/
theorem machine_checks_reported_once_iff [BinaryHeap] (ordered : tree.Ordered) :
    ReportsEachOnce tree ↔ BanksInPlace tree := by
  constructor
  · intro reports front record first
    by_cases named : recordName record ∈ mcaNames ++ coreNames
    · have recordOrdered := ordered_of_first ordered record_stop_self first
      apply (record_exact_iff recordOrdered named).mp
      intro path tag
      have below := below_record_iff ordered first named path tag
      rw [← below.1, ← below.2]
      exact reports.expected _ _
    · rw [List.mem_append, not_or] at named
      exact ⟨fun mca => absurd mca named.1, fun core => absurd core named.2⟩
  · intro inPlace
    refine ⟨analyze_machine_checks_perm tree, origins_paths_nodup ordered, ?_⟩
    intro path tag
    have recordExact {front : List String} {record : Node} (first : First recordStop tree front record)
        (named : recordName record ∈ mcaNames ++ coreNames) :=
      (record_exact_iff (ordered_of_first ordered record_stop_self first) named).mpr (inPlace front record first)
    constructor
    · intro member
      obtain ⟨front, rest, record, rfl, first, inside⟩ := (mem_extend_iff ordered).mp member
      have named : recordName record ∈ mcaNames ++ coreNames := by
        by_contra other
        rw [record_origins_of_other other] at inside
        cases inside
      exact ⟨front, record, rest, rfl, first, named, (recordExact first named rest tag).mp inside⟩
    · rintro ⟨front, record, rest, rfl, first, named, below⟩
      exact (mem_extend_iff ordered).mpr
        ⟨front, rest, record, rfl, first, (recordExact first named rest tag).mpr below⟩

end Exact

/-! ### Two records -/

/-- A bank with a status at the end of a path of sections. -/
def bankBelow [UnicodeTables] (parent : Node) (status : UInt64) : List String → Node
  | [] => parent.add (newField "status" status)
  | name :: rest => parent.add (bankBelow (newSection name) status rest)

theorem bank_below_ordered [UnicodeTables] {parent : Node} (ordered : parent.Ordered) (status : UInt64)
    (path : List String) : (bankBelow parent status path).Ordered := by
  induction path generalizing parent with
  | nil => exact ordered.add (.childless rfl)
  | cons name rest ih => exact ordered.add (ih (.childless rfl))

theorem walk_of_only_child {node child last : Node} {key name : String} {rest : List String}
    (only : node.children = [(key, child)]) (walked : node.walk (name :: rest) = some last) :
    name = key ∧ child.walk rest = some last := by
  obtain ⟨next, found, below⟩ := Option.bind_eq_some_iff.mp walked
  rw [Node.get, only, OrderedMap.lookup, OrderedMap.lookup_nil] at found
  split_ifs at found with same
  cases found
  exact ⟨same.symm, below⟩

theorem mca_bank_reported_once :
    letI := UnicodeTables.ascii
    letI := BinaryHeap.first
    ReportsEachOnce (newRoot.add (bankBelow (newRecord "mca") 0x8000000012345678 ["bank0"])) := by
  let _ := UnicodeTables.ascii
  let _ := BinaryHeap.first
  let tree := newRoot.add (bankBelow (newRecord "mca") 0x8000000012345678 ["bank0"])
  have ordered : tree.Ordered :=
    (Ordered.childless rfl).add (bank_below_ordered (.childless rfl) _ _)
  apply (machine_checks_reported_once_iff ordered).mpr
  intro front record first
  have only : tree.frontier recordStop = [(["mca"], bankBelow (newRecord "mca") 0x8000000012345678 ["bank0"])] :=
    rfl
  have member := (mem_frontier_iff ordered).mpr first
  rw [only, List.mem_singleton] at member
  cases member
  refine ⟨fun _ path node tag nonempty walked check _ => ?_, fun core => absurd core (by decide)⟩
  cases path with
  | nil => exact absurd rfl nonempty
  | cons name rest =>
      obtain ⟨rfl, below⟩ := walk_of_only_child rfl walked
      cases rest with
      | nil =>
          have single : OutsideBanks (bankBelow (newRecord "mca") 0x8000000012345678 ["bank0"]) ["bank0"] := by
            decide
          exact single
      | cons second rest =>
          -- Only the status is below the bank, and it has no name of a bank.
          obtain ⟨rfl, deeper⟩ := walk_of_only_child rfl below
          cases rest with
          | nil =>
              cases deeper
              obtain ⟨id, _, named, _⟩ := check.decoded
              have unnamed : Bank.idFromName (newField "status" 0x8000000012345678).name = none := by decide
              rw [unnamed] at named
              cases named
          | cons third rest => cases deeper

/-- The registers of an `ecore` record are below `core`, which has no `thread`. -/
theorem ecore_machine_check_not_reported :
    letI := UnicodeTables.ascii
    letI := BinaryHeap.first
    let record := bankBelow (newRecord "ecore") 0xbe00000000800400 ["core", "arch_state", "mca", "bank3"]
    let path := ["ecore", "core", "arch_state", "mca", "bank3"]
    let tag := Tag.machineCheck 3 "MSCOD_0080H" "INTERNAL_TIMER_ERROR"
    analyze [newRoot.add record] = [] ∧ Expected (newRoot.add record) path tag ∧
      ¬ ReportsEachOnce (newRoot.add record) := by
  let _ := UnicodeTables.ascii
  let _ := BinaryHeap.first
  intro record path tag
  have first : First recordStop (newRoot.add record) ["ecore"] record := by
    refine ⟨⟨record, rfl, rfl⟩, ?_⟩
    intro front inside apart middle walked
    cases front with
    | nil =>
        cases walked
        rfl
    | cons name rest =>
        obtain ⟨rfl, below⟩ := List.cons_prefix_cons.mp inside
        exact absurd (by rw [List.prefix_nil.mp below]) apart
  have check : ExpectedBelow record ["core", "arch_state", "mca", "bank3"] tag :=
    { nonempty := by decide
      valid := ⟨bankBelow (newSection "bank3") 0xbe00000000800400 [], rfl,
        ⟨3, 0xbe00000000800400, by decide, rfl, by decide, by decide, by decide⟩⟩
      outside := by decide }
  have expected : Expected (newRoot.add record) path tag :=
    ⟨["ecore"], record, ["core", "arch_state", "mca", "bank3"], rfl, first, by decide, check⟩
  refine ⟨by decide +kernel, expected, ?_⟩
  intro reports
  have silent : origins (newRoot.add record) = [] := by decide +kernel
  have reported := (reports.expected path tag).mpr expected
  rw [silent] at reported
  cases reported

end Analyzer

end Crashlog
