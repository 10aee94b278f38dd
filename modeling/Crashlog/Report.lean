import Crashlog.Analysis
import Mathlib.Algebra.BigOperators.Group.Multiset.Basic

/-!
# The triage report

The report lists what all inputs were tagged with, no matter how they are put
in order: timeouts of cores first, then machine checks, then everything else.
The priority of a tag depends on its kind only, which is why the order of the
heap is one of kinds.
-/

namespace Crashlog

/-- The place of a tag in a report: timeouts of cores come first, machine
checks second. -/
def Tag.rank : Tag → Nat
  | coreTimeout _ => 0
  | machineCheck _ _ _ => 1
  | resetCause _ _ | crashLogReason _ _ | crashLogAgentError _ _ => 2

/-- The priority of the tags of a rank. -/
def Tag.priority (tag : Tag) : Int32 :=
  match tag.rank with
  | 0 => 10
  | 1 => 5
  | _ => 0

theorem Tag.rank_le_of_priority_le {first later : Tag} (above : later.priority ≤ first.priority) :
    first.rank ≤ later.rank := by
  revert above
  cases first <;> cases later <;> simp only [priority, rank] <;> decide

namespace Analyzer

/-! ## Priorities -/

/-- Every tag is pushed with the priority of its kind. -/
def Ranked (tags : List TriageTag) : Prop := ∀ tag ∈ tags, tag.priority = tag.tag.priority

namespace Ranked

theorem nil : Ranked [] := by simp [Ranked]

theorem append {first second : List TriageTag} (firstRanked : Ranked first) (secondRanked : Ranked second) :
    Ranked (first ++ second) := by
  intro tag member
  rcases List.mem_append.mp member with front | back
  · exact firstRanked tag front
  · exact secondRanked tag back

theorem flat_map {α : Type} {items : List α} {tags : α → List TriageTag}
    (each : ∀ item ∈ items, Ranked (tags item)) : Ranked (items.flatMap tags) := by
  intro tag member
  obtain ⟨item, inside, pushed⟩ := List.mem_flatMap.mp member
  exact each item inside tag pushed

theorem tag_with_priority {priority : Int32} {tag : Tag} (same : priority = tag.priority) :
    Ranked (tagWithPriority priority tag) := by
  intro pushed member
  rw [List.mem_singleton.mp member]
  exact same

theorem explore {handle : Node → Option (List TriageTag)}
    (handled : ∀ node found, handle node = some found → Ranked found) (node : Node) :
    Ranked (node.explore handle) := by
  rw [Node.explore_eq]
  cases found : handle node with
  | some tags => exact handled node tags found
  | none => exact Node.explore_children_forall handled node.children

variable [UnicodeTables]

theorem report_reset_cause (kind : ResetKind) (node : Node) : Ranked (reportResetCause kind node) := by
  apply flat_map
  intro entry _
  cases entry.2.value with
  | none => exact nil
  | some value =>
      dsimp only
      split_ifs
      · exact nil
      · exact tag_with_priority rfl

theorem analyze_pmc_rst (node : Node) : Ranked (analyzePmcRst node) := by
  induction node using analyzePmcRst.induct with
  | case1 node inner found ih =>
      rw [analyzePmcRst]
      split
      · next other again =>
          rw [found] at again
          cases again
          exact ih
      · next missing =>
          rw [found] at missing
          cases missing
  | case2 node missing =>
      have causes (kind : ResetKind) (cause : Option Node) :
          Ranked (cause.elim [] (reportResetCause kind)) := by
        cases cause with
        | none => exact nil
        | some node => exact report_reset_cause kind node
      rw [analyzePmcRst]
      split
      · next inner found =>
          rw [missing] at found
          cases found
      · exact ((causes _ _).append (causes _ _)).append (causes _ _)

theorem analyze_reason (node : Node) : Ranked (analyzeReason node) := by
  unfold analyzeReason
  cases (node.getByPath "hdr.reason").bind Node.value with
  | none => exact nil
  | some value => exact tag_with_priority rfl

omit [UnicodeTables] in
theorem analyze_crashlog_agent (agent : Node) : Ranked (analyzeCrashlogAgent agent) := by
  unfold analyzeCrashlogAgent
  split
  · split_ifs
    · exact tag_with_priority rfl
    · exact nil
  · exact nil

omit [UnicodeTables] in
theorem triage_mca_bank (bank : Bank) : Ranked (triageMcaBank bank) := by
  unfold triageMcaBank
  split_ifs
  · exact nil
  · exact tag_with_priority rfl

omit [UnicodeTables] in
theorem analyze_mca (mca : Node) : Ranked (analyzeMca mca) := by
  have banks : ∀ node found, (Bank.fromNode node).map triageMcaBank = some found → Ranked found := by
    intro node found handled
    obtain ⟨bank, _, rfl⟩ := Option.map_eq_some_iff.mp handled
    exact triage_mca_bank bank
  exact Node.explore_children_forall banks mca.children

theorem analyze_three_strike_timeout (core : Node) : Ranked (analyzeThreeStrikeTimeout core) := by
  unfold analyzeThreeStrikeTimeout
  split
  · exact nil
  · split_ifs
    · exact nil
    · exact nil
    · exact tag_with_priority rfl

omit [UnicodeTables] in
theorem analyze_core_mca (core : Node) : Ranked (analyzeCoreMca core) := by
  unfold analyzeCoreMca
  split
  · exact nil
  · apply flat_map
    intro entry _
    split
    · exact nil
    · exact triage_mca_bank _

theorem analyze_core (node : Node) : Ranked (analyzeCore node) := by
  apply explore
  intro core found handled
  split_ifs at handled
  cases handled
  exact (analyze_three_strike_timeout core).append (analyze_core_mca core)

theorem analyze_record (node : Node) : Ranked (analyzeRecord node) := by
  unfold analyzeRecord
  split
  · exact analyze_pmc_rst node
  · exact analyze_reason node
  · exact analyze_reason node
  · exact analyze_core node
  · exact analyze_core node
  · exact analyze_mca node
  · exact analyze_crashlog_agent node
  · exact nil

theorem analyze_records (node : Node) : Ranked (analyzeRecords node) := by
  apply explore
  intro record found handled
  split_ifs at handled
  cases handled
  exact analyze_record record

end Ranked

/-! ## The order of the heap -/

variable [BinaryHeap]

/-- What is popped first has the greatest priority of all. -/
theorem build_report_sorted {tags : List TriageTag} (ranked : Ranked tags) :
    (buildReport tags).Pairwise fun first later => first.rank ≤ later.rank := by
  induction tags using buildReport.induct with
  | case1 tags empty =>
      have nothing := BinaryHeap.eq_nil_of_pop empty
      subst nothing
      have silent := (build_report_perm []).eq_nil
      rw [silent]
      exact .nil
  | case2 tags greatest rest popped ih =>
      have perm := BinaryHeap.perm_of_pop popped
      have nonempty : tags ≠ [] := by
        rintro rfl
        exact List.cons_ne_nil _ _ perm.eq_nil
      obtain ⟨other, others, again, _, bound⟩ := BinaryHeap.pop_greatest tags nonempty
      rw [popped] at again
      cases again
      have greatestRanked := ranked greatest (perm.mem_iff.mp List.mem_cons_self)
      have report : buildReport tags = greatest.tag :: buildReport rest := by
        rw [buildReport]
        split
        · next empty =>
            rw [popped] at empty
            cases empty
        · next other others again =>
            rw [popped] at again
            cases again
            rfl
      rw [report, List.pairwise_cons]
      constructor
      · intro later member
        obtain ⟨tag, waiting, rfl⟩ := List.mem_map.mp ((build_report_perm rest).mem_iff.mp member)
        have inside : tag ∈ tags := perm.mem_iff.mp (List.mem_cons_of_mem _ waiting)
        apply Tag.rank_le_of_priority_le
        rw [← greatestRanked, ← ranked tag inside]
        exact bound tag inside
      · exact ih fun tag waiting => ranked tag (perm.mem_iff.mp (List.mem_cons_of_mem _ waiting))

variable [UnicodeTables]

theorem analyze_perm (inputs : List Node) :
    (analyze inputs).Perm (inputs.flatMap fun input => (analyzeRecords input).map TriageTag.tag) := by
  rw [← List.map_flatMap]
  exact build_report_perm _

/-- What the report on a queue of inputs is: all that the reports on its inputs
have, in whatever order the inputs are, and sorted by kind. -/
structure SortedUnion (inputs : List Node) : Prop where
  found : (analyze inputs).Perm (inputs.flatMap fun input => (analyzeRecords input).map TriageTag.tag)
  union : (analyze inputs : Multiset Tag) = (inputs.map fun input => (analyze [input] : Multiset Tag)).sum
  unordered : ∀ reordered, inputs.Perm reordered → (analyze inputs).Perm (analyze reordered)
  sorted : (analyze inputs).Pairwise fun first later => first.rank ≤ later.rank

theorem report_is_sorted_union (inputs : List Node) : SortedUnion inputs where
  found := analyze_perm inputs
  union := by
    have alone : ∀ input, (analyze [input] : Multiset Tag) = (analyzeRecords input).map TriageTag.tag := by
      intro input
      have report := analyze_perm [input]
      rw [List.flatMap_singleton] at report
      exact Multiset.coe_eq_coe.mpr report
    simp only [alone]
    rw [Multiset.coe_eq_coe.mpr (analyze_perm inputs)]
    induction inputs with
    | nil => rfl
    | cons input rest ih => rw [List.flatMap_cons, ← Multiset.coe_add, ih, List.map_cons, List.sum_cons]
  unordered reordered perm :=
    (analyze_perm inputs).trans ((perm.flatMap_right _).trans (analyze_perm reordered).symm)
  sorted := build_report_sorted (Ranked.flat_map fun input _ => Ranked.analyze_records input)

/-- A reason of the `Punit`, and a machine check behind it in the queue. -/
def reasonAndCheck : List Node :=
  [.add .newRoot (.add (.newRecord "Punit") (.add (.newSection "hdr") (.newField "reason" 3))),
    .add .newRoot (.add (.newRecord "MCA") (.add (.newSection "bank0") (.newField "status" 0x8000000012345678)))]

omit [UnicodeTables] [BinaryHeap] in
theorem later_machine_check_reported_first :
    letI := UnicodeTables.ascii
    letI := BinaryHeap.first
    SortedUnion reasonAndCheck ∧
      analyze reasonAndCheck =
        [.machineCheck 0 "MSCOD_1234H" "MCACOD_5678H", .crashLogReason "PUNIT" (.raw 3)] := by
  let _ := UnicodeTables.ascii
  let _ := BinaryHeap.first
  exact ⟨report_is_sorted_union reasonAndCheck, by decide +kernel⟩

end Analyzer

end Crashlog
