import Crashlog.Tag

/-!
# Triage analysis

The analyzer finds the outermost records of a decoded tree and looks into each
of them for what its kind is known to report. Each analysis is given here as
the list of tags that it pushes on the heap of the analyzer.
-/

namespace Crashlog.Analyzer

def tagWithPriority (priority : Int32) (tag : Tag) : List TriageTag := [{ priority, tag }]

def tag (tag : Tag) : List TriageTag := tagWithPriority 0 tag

section Records

variable [UnicodeTables]

/-! ## Reset causes, reasons, the agent -/

def reportResetCause (kind : ResetKind) (node : Node) : List TriageTag :=
  node.children.flatMap fun entry =>
    match entry.2.value with
    | some value =>
        if value = 0 then []
        else tag (.resetCause kind (UnicodeTables.toUppercase entry.2.name))
    | none => []

/-- The registers may be in a section of the name of the record. -/
def analyzePmcRst (node : Node) : List TriageTag :=
  match _inner : (node.get "pmc_rst").or (node.get "pmc") with
  | some pmcRst => analyzePmcRst pmcRst
  | none =>
      (node.get "gblrst_cause_0").elim [] (reportResetCause .global) ++
        (node.get "fw_gblrst_cause_0").elim [] (reportResetCause .firmwareGlobal) ++
        (node.get "host_pr_cause_0").elim [] (reportResetCause .hostPartition)
termination_by sizeOf node
decreasing_by
  rcases Option.or_eq_some_iff.mp _inner with found | ⟨_, found⟩
  · exact Node.size_of_get found
  · exact Node.size_of_get found

def analyzeReason (node : Node) : List TriageTag :=
  match (node.getByPath "hdr.reason").bind Node.value with
  | some value =>
      tag (.crashLogReason (UnicodeTables.toUppercase node.name) (.raw value.toUInt32))
  | none => []

omit [UnicodeTables] in
def analyzeCrashlogAgent (agent : Node) : List TriageTag :=
  match ((agent.get "status").bind Node.value).bind CrashLogAgentStatus.fromU64,
      (agent.get "instruction_pointer").bind Node.value with
  | some status, some ip =>
      if status.isError then tag (.crashLogAgentError status ip.toUInt32) else []
  | _, _ => []

/-! ## Machine checks -/

def triageMcaBank (bank : Bank) : List TriageTag :=
  if !bank.status.valid then []
  else tagWithPriority 5 (.machineCheck bank.id bank.status.mscod.toString bank.status.mcacod.toString)

/-- A bank is not looked into, any other child is. -/
def analyzeMca (mca : Node) : List TriageTag :=
  Node.exploreChildren (fun child => (Bank.fromNode child).map triageMcaBank) mca.children

/-! ## Cores -/

def analyzeThreeStrikeTimeout (core : Node) : List TriageTag :=
  match (core.getByPath "thread.arch_state.mca.bank3").bind Bank.fromNode with
  | none => []
  | some bank =>
      if !bank.status.valid then []
      else if bank.status.mcacod ≠ .internalTimerError then []
      else
        let transactionQueue :=
          (((core.get "sq").or (core.get "xq")).bind TransactionQueue.fromNode).elim
            .notCaptured TransactionQueue.triage
        tagWithPriority 10 (.coreTimeout transactionQueue)

def analyzeCoreMca (core : Node) : List TriageTag :=
  match core.getByPath "thread.arch_state.mca" with
  | none => []
  | some mca =>
      mca.children.flatMap fun entry =>
        match Bank.fromNode entry.2 with
        | none => []
        | some bank => triageMcaBank bank

/-- A node with a `thread` is a core, other nodes are searched for cores. -/
def analyzeCore (node : Node) : List TriageTag :=
  node.explore fun node =>
    if (node.get "thread").isSome then some (analyzeThreeStrikeTimeout node ++ analyzeCoreMca node)
    else none

/-! ## The analyzer -/

def analyzeRecord (node : Node) : List TriageTag :=
  match Text.trimEndNumeric node.name with
  | "pmc_rst" => analyzePmcRst node
  | "punit" | "pmc" => analyzeReason node
  | "pcore" | "ecore" => analyzeCore node
  | "mca" => analyzeMca node
  | "crashlog_agent" => analyzeCrashlogAgent node
  | _ => []

def analyzeRecords (node : Node) : List TriageTag :=
  node.explore fun node => if node.kind = .record then some (analyzeRecord node) else none

end Records

section Report

variable [BinaryHeap]

def buildReport (tags : List TriageTag) : List Tag :=
  match _popped : BinaryHeap.pop tags with
  | none => []
  | some (greatest, rest) => greatest.tag :: buildReport rest
termination_by tags.length
decreasing_by
  have perm := (BinaryHeap.perm_of_pop _popped).length_eq
  rw [List.length_cons] at perm
  omega

/-- The tags of the report on a queue of inputs. -/
def analyze [UnicodeTables] (inputs : List Node) : List Tag :=
  buildReport (inputs.flatMap analyzeRecords)

theorem build_report_perm (tags : List TriageTag) :
    (buildReport tags).Perm (tags.map TriageTag.tag) := by
  induction tags using buildReport.induct with
  | case1 tags empty =>
      have nothing := BinaryHeap.eq_nil_of_pop empty
      subst nothing
      rw [buildReport]
      split
      · exact .refl _
      · next greatest rest popped =>
          rw [empty] at popped
          cases popped
  | case2 tags greatest rest popped ih =>
      rw [buildReport]
      split
      · next empty =>
          rw [popped] at empty
          cases empty
      · next other others again =>
          rw [popped] at again
          cases again
          exact (ih.cons greatest.tag).trans ((BinaryHeap.perm_of_pop popped).map TriageTag.tag)

end Report

end Crashlog.Analyzer
