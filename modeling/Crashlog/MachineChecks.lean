import Crashlog.Analysis
import Mathlib.Data.List.Infix

/-!
# Machine checks in the report

A valid machine check is a node with the name of a bank and a status that was
captured and is valid. The ones that are expected in a report lie below a
record of the right name and in no other bank. `origins` are the nodes that the
analyzer does report, with their paths; without the paths they are the machine
checks of the report.
-/

namespace Crashlog

open Node

/-! ## Valid machine checks -/

def Tag.isMachineCheck : Tag → Bool
  | .machineCheck .. => true
  | _ => false

/-- The node is named `bank<N>`, and its status child was decoded, was captured
and is valid. -/
structure MachineCheckAt (node : Node) (tag : Tag) : Prop where
  decoded : ∃ id status, Bank.idFromName node.name = some id ∧
    (node.get "status").bind Node.value = some status ∧
    status.toNat.testBit 63 ∧ status &&& 0xFFFFFFFF ≠ 0xDEADBEEF ∧
    tag = .machineCheck id
      (ModelSpecificCode.fromU16 ((status >>> 16) &&& 0xFFFF).toUInt16).toString
      (MachineCheckErrorCode.fromU16 (status &&& 0xFFFF).toUInt16).toString

/-- No node on the way to the path has the name of a bank. -/
def OutsideBanks (record : Node) (path : List String) : Prop :=
  ∀ front, front ≠ [] → front <+: path → front ≠ path →
    ∀ middle, record.walk front = some middle → Bank.idFromName middle.name = none

instance (record : Node) (path : List String) : Decidable (OutsideBanks record path) :=
  decidable_of_iff (∀ front ∈ path.inits, front ≠ [] → front ≠ path →
      ∀ middle ∈ record.walk front, Bank.idFromName middle.name = none) (by
    simp only [List.mem_inits, Option.mem_def]
    exact ⟨fun all front nonempty inside => all front inside nonempty,
      fun outside front inside nonempty => outside front nonempty inside⟩)

/-- A machine check that a record should be reported for. -/
structure ExpectedBelow (record : Node) (path : List String) (tag : Tag) : Prop where
  nonempty : path ≠ []
  valid : ∃ node, record.walk path = some node ∧ MachineCheckAt node tag
  outside : OutsideBanks record path

def IsRecord (node : Node) : Prop := node.kind = .record

instance (node : Node) : Decidable (IsRecord node) := inferInstanceAs (Decidable (_ = _))

/-- Records end the search for records. -/
def recordStop (node : Node) : Option Node := if IsRecord node then some node else none

section Expected

variable [UnicodeTables]

def mcaNames : List String := ["mca"]

def coreNames : List String := ["pcore", "ecore"]

/-- The name of a record without its instance number. -/
def recordName (node : Node) : String := Text.trimEndNumeric node.name

/-- A machine check of the tree, below an outermost record of the right name. -/
structure Expected (tree : Node) (path : List String) (tag : Tag) : Prop where
  below : ∃ front record rest, path = front ++ rest ∧ First recordStop tree front record ∧
    recordName record ∈ mcaNames ++ coreNames ∧ ExpectedBelow record rest tag

end Expected

/-! ## What the analyzer reports -/

namespace Bank

def tag (bank : Bank) : Tag :=
  .machineCheck bank.id bank.status.mscod.toString bank.status.mcacod.toString

/-- The tag of a bank, if it is valid. -/
def validTag (bank : Bank) : Option Tag := if bank.status.valid then some bank.tag else none

theorem status_from_u64_eq_some {word : UInt64} {status : Status} :
    Status.fromU64 word = some status ↔ word &&& 0xFFFFFFFF ≠ 0xDEADBEEF ∧
      status = {
        valid := word.toNat.testBit 63
        mscod := .fromU16 ((word >>> 16) &&& 0xFFFF).toUInt16
        mcacod := .fromU16 (word &&& 0xFFFF).toUInt16 } := by
  have top : (word >>> 63 != 0) = word.toNat.testBit 63 := by
    have shifted : (word >>> 63).toNat = word.toNat >>> 63 := UInt64.toNat_shiftRight word 63
    have small : word.toNat >>> 63 < 2 := by
      rw [Nat.shiftRight_eq_div_pow]
      have bound := word.toNat_lt
      omega
    have bit : word.toNat.testBit 63 = (word.toNat >>> 63).testBit 0 := by
      rw [Nat.testBit_shiftRight]
    rw [bit, ← shifted]
    rw [← shifted] at small
    rw [Nat.testBit_zero, bne, Bool.eq_iff_iff]
    simp only [Bool.not_eq_true', beq_eq_false_iff_ne, ne_eq, decide_eq_true_eq, ← UInt64.toNat_inj,
      UInt64.toNat_zero]
    omega
  unfold Status.fromU64
  rw [top]
  split_ifs with marker
  · simp [marker]
  · simp [marker, eq_comm]

theorem from_node_eq_some {node : Node} {bank : Bank} :
    Bank.fromNode node = some bank ↔ ∃ word, (node.get "status").bind Node.value = some word ∧
      idFromName node.name = some bank.id ∧ Status.fromU64 word = some bank.status := by
  unfold fromNode
  simp only [Option.bind_eq_bind, Option.bind_eq_some_iff, Option.some.injEq]
  constructor
  · rintro ⟨word, captured, id, named, status, read, rfl⟩
    exact ⟨word, captured, named, read⟩
  · rintro ⟨word, captured, named, read⟩
    exact ⟨word, captured, bank.id, named, bank.status, read, rfl⟩

/-- A node without the name of a bank is no bank. -/
theorem from_node_eq_none {node : Node} (unnamed : idFromName node.name = none) :
    Bank.fromNode node = none := by
  cases read : Bank.fromNode node with
  | none => rfl
  | some bank =>
      obtain ⟨word, _, named, _⟩ := from_node_eq_some.mp read
      rw [unnamed] at named
      cases named

theorem valid_tag_eq_some {bank : Bank} {tag : Tag} :
    bank.validTag = some tag ↔ bank.status.valid ∧ tag = bank.tag := by
  unfold validTag
  split_ifs with valid
  · simp [valid, eq_comm]
  · simp [valid]

theorem machine_check_at_iff {node : Node} {tag : Tag} :
    MachineCheckAt node tag ↔ (Bank.fromNode node).bind validTag = some tag := by
  simp only [Option.bind_eq_some_iff, from_node_eq_some, valid_tag_eq_some, status_from_u64_eq_some]
  constructor
  · rintro ⟨id, word, named, captured, valid, unmarked, rfl⟩
    exact ⟨⟨id, _⟩, ⟨word, Option.bind_eq_some_iff.mp captured, named, unmarked, rfl⟩, valid, rfl⟩
  · rintro ⟨bank, ⟨word, captured, named, unmarked, status⟩, valid, rfl⟩
    refine ⟨bank.id, word, named, Option.bind_eq_some_iff.mpr captured, ?_, unmarked, ?_⟩
    · rw [status] at valid
      exact valid
    · rw [Bank.tag, status]

end Bank

namespace Analyzer

/-- The machine checks among pushed tags. -/
def machineChecks (tags : List TriageTag) : List Tag :=
  (tags.map TriageTag.tag).filter Tag.isMachineCheck

def threadStop (node : Node) : Option Node := if (node.get "thread").isSome then some node else none

def threadMca : List String := ["thread", "arch_state", "mca"]

/-! ### The reported nodes -/

def mcaOrigins (record : Node) : List (List String × Tag) :=
  (frontierChildren Bank.fromNode record.children).filterMap fun found =>
    found.2.validTag.map fun tag => (found.1, tag)

def coreMcaOrigins (core : Node) : List (List String × Tag) :=
  match core.walk threadMca with
  | none => []
  | some mca =>
      mca.children.filterMap fun entry =>
        ((Bank.fromNode entry.2).bind Bank.validTag).map fun tag => (threadMca ++ [entry.1], tag)

def coreOrigins (record : Node) : List (List String × Tag) := record.extend threadStop coreMcaOrigins

variable [UnicodeTables]

def recordOrigins (record : Node) : List (List String × Tag) :=
  if recordName record ∈ mcaNames then mcaOrigins record
  else if recordName record ∈ coreNames then coreOrigins record
  else []

def origins (tree : Node) : List (List String × Tag) := tree.extend recordStop recordOrigins

/-! ### The machine checks of each analysis -/

section Tags

omit [UnicodeTables] in
@[simp] theorem machine_checks_nil : machineChecks [] = [] := rfl

omit [UnicodeTables] in
@[simp] theorem machine_checks_append (first second : List TriageTag) :
    machineChecks (first ++ second) = machineChecks first ++ machineChecks second := by
  simp [machineChecks]

omit [UnicodeTables] in
theorem machine_checks_flat_map {α : Type*} (list : List α) (tags : α → List TriageTag) :
    machineChecks (list.flatMap tags) = list.flatMap fun entry => machineChecks (tags entry) := by
  induction list with
  | nil => rfl
  | cons entry rest ih => rw [List.flatMap_cons, machine_checks_append, ih, List.flatMap_cons]

omit [UnicodeTables] in
theorem machine_checks_triage_mca_bank (bank : Bank) :
    machineChecks (triageMcaBank bank) = bank.validTag.toList := by
  unfold triageMcaBank Bank.validTag
  cases bank.status.valid <;> rfl

theorem machine_checks_report_reset_cause (kind : ResetKind) (node : Node) :
    machineChecks (reportResetCause kind node) = [] := by
  rw [reportResetCause, machine_checks_flat_map, List.flatMap_eq_nil_iff]
  intro entry _
  cases entry.2.value with
  | none => rfl
  | some value =>
      dsimp only
      split_ifs <;> rfl

theorem machine_checks_analyze_pmc_rst (node : Node) : machineChecks (analyzePmcRst node) = [] := by
  induction node using analyzePmcRst.induct with
  | case1 node inner found ih =>
      rw [analyzePmcRst]
      split
      · next other again =>
          rw [found] at again
          cases again
          exact ih
      · next missing =>
          rw [found] at missing
          cases missing
  | case2 node missing =>
      rw [analyzePmcRst]
      split
      · next inner found =>
          rw [missing] at found
          cases found
      · have causes (kind : ResetKind) (cause : Option Node) :
            machineChecks (cause.elim [] (reportResetCause kind)) = [] := by
          cases cause with
          | none => rfl
          | some node => exact machine_checks_report_reset_cause kind node
        simp only [machine_checks_append, causes, List.append_nil]

theorem machine_checks_analyze_reason (node : Node) : machineChecks (analyzeReason node) = [] := by
  unfold analyzeReason
  cases (node.getByPath "hdr.reason").bind Node.value <;> rfl

omit [UnicodeTables] in
theorem machine_checks_analyze_crashlog_agent (agent : Node) :
    machineChecks (analyzeCrashlogAgent agent) = [] := by
  unfold analyzeCrashlogAgent
  split
  · split_ifs <;> rfl
  · rfl

theorem machine_checks_analyze_three_strike_timeout (core : Node) :
    machineChecks (analyzeThreeStrikeTimeout core) = [] := by
  unfold analyzeThreeStrikeTimeout
  split
  · rfl
  · split_ifs <;> rfl

omit [UnicodeTables] in
theorem machine_checks_analyze_mca (mca : Node) :
    machineChecks (analyzeMca mca) = (mcaOrigins mca).map Prod.snd := by
  rw [analyzeMca, explore_children_eq_frontier, machine_checks_flat_map,
    mcaOrigins]
  induction frontierChildren Bank.fromNode mca.children with
  | nil => rfl
  | cons found rest ih =>
      rw [List.flatMap_cons, ih, machine_checks_triage_mca_bank]
      cases valid : found.2.validTag <;> simp [valid]

omit [UnicodeTables] in
theorem machine_checks_analyze_core_mca (core : Node) :
    machineChecks (analyzeCoreMca core) = (coreMcaOrigins core).map Prod.snd := by
  have path : core.getByPath "thread.arch_state.mca" = core.walk threadMca := by
    have split : Text.split '.' "thread.arch_state.mca" = threadMca := by decide
    rw [Node.getByPath, split]
  rw [analyzeCoreMca, coreMcaOrigins, path]
  cases core.walk threadMca with
  | none => rfl
  | some mca =>
      dsimp only
      rw [machine_checks_flat_map]
      induction mca.children with
      | nil => rfl
      | cons entry rest ih =>
          rw [List.flatMap_cons, ih]
          cases read : Bank.fromNode entry.2 with
          | none => simp [read]
          | some bank =>
              rw [machine_checks_triage_mca_bank]
              cases valid : bank.validTag <;> simp [read, valid]

omit [UnicodeTables] in
theorem extend_tags {β : Type*} (stop : Node → Option β) (below : β → List (List String × Tag))
    (node : Node) :
    (node.extend stop below).map Prod.snd =
      (node.frontier stop).flatMap fun found => (below found.2).map Prod.snd := by
  rw [Node.extend, List.map_flatMap]
  congr
  funext found
  rw [List.map_map]
  rfl

theorem machine_checks_analyze_core (node : Node) :
    machineChecks (analyzeCore node) = (coreOrigins node).map Prod.snd := by
  have handled : (fun node : Node => if (node.get "thread").isSome then
        some (analyzeThreeStrikeTimeout node ++ analyzeCoreMca node) else none) =
      fun node => (threadStop node).map fun core => analyzeThreeStrikeTimeout core ++ analyzeCoreMca core := by
    funext node
    by_cases thread : (node.get "thread").isSome
    · simp [threadStop, thread]
    · simp [threadStop, thread]
  rw [analyzeCore, handled, explore_eq_frontier, machine_checks_flat_map, coreOrigins, extend_tags]
  simp only [machine_checks_append, machine_checks_analyze_three_strike_timeout, List.nil_append,
    machine_checks_analyze_core_mca]

theorem record_origins_of_mca {record : Node} (named : recordName record ∈ mcaNames) :
    recordOrigins record = mcaOrigins record := by
  rw [recordOrigins, if_pos named]

theorem core_is_no_mca {record : Node} (core : recordName record ∈ coreNames) :
    recordName record ∉ mcaNames := by
  intro mca
  rw [mcaNames, List.mem_singleton] at mca
  rw [mca] at core
  exact absurd core (by decide)

theorem record_origins_of_core {record : Node} (named : recordName record ∈ coreNames) :
    recordOrigins record = coreOrigins record := by
  rw [recordOrigins, if_neg (core_is_no_mca named), if_pos named]

theorem record_origins_of_other {record : Node} (other : recordName record ∉ mcaNames ++ coreNames) :
    recordOrigins record = [] := by
  rw [List.mem_append, not_or] at other
  rw [recordOrigins, if_neg other.1, if_neg other.2]

theorem machine_checks_analyze_record (record : Node) :
    machineChecks (analyzeRecord record) = (recordOrigins record).map Prod.snd := by
  have silent (other : recordName record ∉ mcaNames ++ coreNames) (tags : List TriageTag)
      (none : machineChecks tags = []) : machineChecks tags = (recordOrigins record).map Prod.snd := by
    rw [none, record_origins_of_other other, List.map_nil]
  unfold analyzeRecord
  split
  · next name => exact silent (by rw [recordName, name]; decide) _ (machine_checks_analyze_pmc_rst record)
  · next name => exact silent (by rw [recordName, name]; decide) _ (machine_checks_analyze_reason record)
  · next name => exact silent (by rw [recordName, name]; decide) _ (machine_checks_analyze_reason record)
  · next name =>
      rw [record_origins_of_core (by rw [recordName, name]; decide)]
      exact machine_checks_analyze_core record
  · next name =>
      rw [record_origins_of_core (by rw [recordName, name]; decide)]
      exact machine_checks_analyze_core record
  · next name =>
      rw [record_origins_of_mca (by rw [recordName, name]; decide)]
      exact machine_checks_analyze_mca record
  · next name =>
      exact silent (by rw [recordName, name]; decide) _ (machine_checks_analyze_crashlog_agent record)
  · next notRst notPunit notPmc notPcore notEcore notMca notAgent =>
      refine silent ?_ _ rfl
      simp only [mcaNames, coreNames, recordName, List.cons_append, List.nil_append, List.mem_cons,
        List.not_mem_nil, or_false, not_or]
      exact ⟨notMca, notPcore, notEcore⟩

theorem machine_checks_analyze_records (tree : Node) :
    machineChecks (analyzeRecords tree) = (origins tree).map Prod.snd := by
  have handled : (fun node : Node => if node.kind = .record then some (analyzeRecord node) else none) =
      fun node => (recordStop node).map analyzeRecord := by
    funext node
    by_cases record : node.kind = .record
    · simp [recordStop, IsRecord, record]
    · simp [recordStop, IsRecord, record]
  rw [analyzeRecords, handled, explore_eq_frontier, machine_checks_flat_map, origins, extend_tags]
  simp only [machine_checks_analyze_record]

/-- The machine checks of the report, up to the order in which the heap gives them. -/
theorem analyze_machine_checks_perm [BinaryHeap] (tree : Node) :
    ((analyze [tree]).filter Tag.isMachineCheck).Perm ((origins tree).map Prod.snd) := by
  rw [← machine_checks_analyze_records, machineChecks]
  apply List.Perm.filter
  rw [analyze, List.flatMap_singleton]
  exact build_report_perm _

end Tags

/-! ### Where the reported nodes are -/

section Places

omit [UnicodeTables] in
/-- A traversal that hands out the node it stops at. -/
theorem ordered_of_first {stop : Node → Option Node} {tree found : Node} {path : List String}
    (ordered : tree.Ordered) (own : ∀ node other, stop node = some other → node = other)
    (first : First stop tree path found) : found.Ordered := by
  obtain ⟨last, walked, stopped⟩ := first.reached
  rw [← own last found stopped]
  exact ordered.of_walk walked

omit [UnicodeTables] in
theorem walk_of_first {stop : Node → Option Node} {tree found : Node} {path : List String}
    (own : ∀ node other, stop node = some other → node = other)
    (first : First stop tree path found) : tree.walk path = some found := by
  obtain ⟨last, walked, stopped⟩ := first.reached
  rw [walked, own last found stopped]

omit [UnicodeTables] in
theorem thread_stop_self (node other : Node) (stopped : threadStop node = some other) : node = other := by
  unfold threadStop at stopped
  split_ifs at stopped
  exact Option.some.inj stopped

omit [UnicodeTables] in
theorem record_stop_self (node other : Node) (stopped : recordStop node = some other) : node = other := by
  unfold recordStop at stopped
  split_ifs at stopped
  exact Option.some.inj stopped

omit [UnicodeTables] in
theorem mem_mca_origins_iff {record : Node} (ordered : record.Ordered) {path : List String} {tag : Tag} :
    (path, tag) ∈ mcaOrigins record ↔
      ∃ bank, FirstBelow Bank.fromNode record path bank ∧ bank.validTag = some tag := by
  rw [mcaOrigins, List.mem_filterMap]
  constructor
  · rintro ⟨⟨other, bank⟩, member, found⟩
    obtain ⟨same, valid, rfl, rfl⟩ : ∃ same, bank.validTag = some same ∧ other = path ∧ same = tag := by
      simpa using found
    exact ⟨bank, (mem_frontier_children_iff_first ordered).mp member, valid⟩
  · rintro ⟨bank, first, valid⟩
    exact ⟨(path, bank), (mem_frontier_children_iff_first ordered).mpr first, by simp [valid]⟩

omit [UnicodeTables] in
theorem mem_core_mca_origins_iff {core : Node} (ordered : core.Ordered) {path : List String} {tag : Tag} :
    (path, tag) ∈ coreMcaOrigins core ↔ ∃ key node, path = threadMca ++ [key] ∧
      core.walk path = some node ∧ (Bank.fromNode node).bind Bank.validTag = some tag := by
  have walked (key : String) : core.walk (threadMca ++ [key]) =
      (core.walk threadMca).bind fun mca => mca.get key := by
    rw [Node.walk_append]
    simp [walk_cons]
  unfold coreMcaOrigins
  cases found : core.walk threadMca with
  | none =>
      simp only [List.not_mem_nil, false_iff]
      rintro ⟨key, node, rfl, reached, _⟩
      rw [walked, found] at reached
      cases reached
  | some mca =>
      simp only [List.mem_filterMap, Option.map_eq_some_iff, Prod.mk.injEq]
      constructor
      · rintro ⟨⟨key, node⟩, member, other, valid, rfl, rfl⟩
        refine ⟨key, node, rfl, ?_, valid⟩
        rw [walked, found, Option.bind_some]
        exact OrderedMap.lookup_of_mem (ordered.of_walk found).sorted member
      · rintro ⟨key, node, rfl, reached, valid⟩
        rw [walked, found, Option.bind_some] at reached
        exact ⟨(key, node), OrderedMap.mem_of_lookup reached, tag, valid, rfl, rfl⟩

omit [UnicodeTables] in
/-- Leaving out entries keeps the order of the labels. -/
theorem labels_sublist {α : Type*} (list : List α) (label : α → List String) (tag : α → Option Tag) :
    ((list.filterMap fun entry => (tag entry).map fun tag => (label entry, tag)).map Prod.fst).Sublist
      (list.map label) := by
  induction list with
  | nil => exact .slnil
  | cons entry rest ih =>
      cases tagged : tag entry with
      | none => simpa [tagged] using ih.cons (label entry)
      | some tag => simpa [tagged] using ih

omit [UnicodeTables] in
theorem mca_origins_paths_nodup {record : Node} (ordered : record.Ordered) :
    ((mcaOrigins record).map Prod.fst).Nodup := by
  have distinct : ((frontierChildren Bank.fromNode record.children).map Prod.fst).Nodup :=
    frontier_children_paths_nodup ordered.sorted fun entry member =>
      frontier_paths_nodup (ordered.of_get (OrderedMap.lookup_of_mem ordered.sorted member))
  exact List.Nodup.sublist (labels_sublist _ Prod.fst _) distinct

omit [UnicodeTables] in
theorem core_mca_origins_paths_nodup {core : Node} (ordered : core.Ordered) :
    ((coreMcaOrigins core).map Prod.fst).Nodup := by
  unfold coreMcaOrigins
  cases found : core.walk threadMca with
  | none => exact .nil
  | some mca =>
      have keys : (mca.children.map Prod.fst).Nodup :=
        (ordered.of_walk found).sorted.imp fun less => ne_of_lt less
      have distinct : ((mca.children.map Prod.fst).map fun key => threadMca ++ [key]).Nodup :=
        keys.map fun _ _ same => by simpa using same
      rw [List.map_map] at distinct
      exact List.Nodup.sublist (labels_sublist mca.children _ _) distinct

theorem record_origins_paths_nodup {record : Node} (ordered : record.Ordered) :
    ((recordOrigins record).map Prod.fst).Nodup := by
  unfold recordOrigins
  split_ifs
  · exact mca_origins_paths_nodup ordered
  · exact extend_paths_nodup ordered fun _ _ first =>
      core_mca_origins_paths_nodup (ordered_of_first ordered thread_stop_self first)
  · exact .nil

/-- No node is reported twice. -/
theorem origins_paths_nodup {tree : Node} (ordered : tree.Ordered) :
    ((origins tree).map Prod.fst).Nodup :=
  extend_paths_nodup ordered fun _ _ first =>
    record_origins_paths_nodup (ordered_of_first ordered record_stop_self first)

end Places

end Analyzer

end Crashlog
