import Crashlog.Analysis

/-!
# Stuck transactions

When a core has run into a timeout, its transaction queue tells which
transactions were stuck. An entry counts only if its address was captured, and
a valid bit that was not captured counts as zero. The finding is that of the
captured valid bits exactly when one was captured and no address that matters
is missing.
-/

namespace Crashlog

/-! ## What the queue loop finds -/

/-- The state for the addresses of all stuck transactions. -/
def TransactionQueueState.ofStuck : List UInt64 → TransactionQueueState
  | [] => noStuckTransaction
  | [address] => singleStuckTransaction address
  | _ => multipleStuckTransaction

namespace TransactionQueueState

variable {addresses : List UInt64}

theorem of_stuck_ne_not_captured : ofStuck addresses ≠ notCaptured := by
  unfold ofStuck
  split <;> simp

theorem of_stuck_eq_no_stuck_iff : ofStuck addresses = noStuckTransaction ↔ addresses = [] := by
  cases addresses with
  | nil => simp [ofStuck]
  | cons first others => cases others <;> simp [ofStuck]

theorem of_stuck_eq_single_iff {address : UInt64} :
    ofStuck addresses = singleStuckTransaction address ↔ addresses = [address] := by
  cases addresses with
  | nil => simp [ofStuck]
  | cons first others => cases others <;> simp [ofStuck]

theorem of_stuck_eq_multiple_iff : ofStuck addresses = multipleStuckTransaction ↔ 2 ≤ addresses.length := by
  cases addresses with
  | nil => simp [ofStuck]
  | cons first others => cases others <;> simp [ofStuck]

end TransactionQueueState

theorem TransactionQueue.triage_entries_of_stuck (stuck : Transaction) (entries : List Transaction) :
    triageEntries (some stuck) entries =
      if (entries.filter Transaction.valid).isEmpty then .singleStuckTransaction stuck.address
      else .multipleStuckTransaction := by
  induction entries with
  | nil => rfl
  | cons entry rest ih =>
      rw [triageEntries, ih, List.filter_cons]
      cases entry.valid <;> simp

theorem TransactionQueue.triage_entries_eq (entries : List Transaction) :
    triageEntries none entries = .ofStuck ((entries.filter Transaction.valid).map Transaction.address) := by
  induction entries with
  | nil => rfl
  | cons entry rest ih =>
      rw [triageEntries, List.filter_cons]
      cases valid : entry.valid with
      | false => simpa using ih
      | true =>
          rw [triage_entries_of_stuck]
          cases rest.filter Transaction.valid <;> simp [TransactionQueueState.ofStuck]

/-! ## What was captured -/

namespace Analyzer

/-- A core whose third bank reports an internal timer error. -/
def TimerError (core : Node) : Prop :=
  ∃ bank, (core.getByPath "thread.arch_state.mca.bank3").bind Bank.fromNode = some bank ∧
    bank.status.valid ∧ bank.status.mcacod = .internalTimerError

def decodedValid (entry : Node) : Option UInt64 := (entry.get "valid").bind Node.value

def decodedAddress (entry : Node) : Option UInt64 :=
  ((entry.get "addr").bind Node.value).or
    (((entry.get "addr_51_6").bind Node.value).map fun value => value <<< (6 : UInt64))

/-- The valid bit of the entry was captured and is not zero. -/
def isStuck (entry : Node) : Bool := (decodedValid entry).any (· != 0)

def transactionQueue (core : Node) : Option Node := (core.get "sq").or (core.get "xq")

variable [UnicodeTables]

def isEntry (node : Node) : Bool :=
  Text.trimEndNumeric node.name = "entry" || Text.trimEndNumeric node.name = "xq_"

def queueEntries (queue : Node) : List Node := (queue.children.map Prod.snd).filter isEntry

/-- The entries of the queue of a core, if it has one. -/
def coreEntries (core : Node) : List Node := (transactionQueue core).elim [] queueEntries

def stuckEntries (core : Node) : List Node := (coreEntries core).filter isStuck

/-- The analysis of the core reports the state of its queue. -/
def Reported (core : Node) (state : TransactionQueueState) : Prop :=
  Tag.coreTimeout state ∈ (analyzeCore core).map TriageTag.tag

/-- What is reported is what was captured. -/
structure ReportsCaptured (core : Node) : Prop where
  noStuck : Reported core .noStuckTransaction →
    (∃ entry ∈ coreEntries core, decodedValid entry ≠ none) ∧
      ∀ entry ∈ coreEntries core, ∀ valid, decodedValid entry = some valid → valid = 0
  multiple : Reported core .multipleStuckTransaction ↔ 2 ≤ (stuckEntries core).length
  single : ∀ address, Reported core (.singleStuckTransaction address) →
    ∃ entry, stuckEntries core = [entry] ∧ decodedAddress entry = some address
  notCaptured : (∀ entry ∈ coreEntries core, decodedValid entry = none) → Reported core .notCaptured

/-- A queue from which the state can be told: a valid bit was captured, and the
addresses of all stuck entries were, or at least two of them. -/
def QueueCaptured (core : Node) : Prop :=
  transactionQueue core = none ∨
    (∃ entry ∈ coreEntries core, decodedValid entry ≠ none) ∧
      ((∀ entry ∈ stuckEntries core, decodedAddress entry ≠ none) ∨
        2 ≤ ((stuckEntries core).filterMap decodedAddress).length)

/-! ## The reported state -/

theorem transaction_from_node_eq (node : Node) :
    Transaction.fromNode node =
      if isEntry node then (decodedAddress node).map fun address => { valid := isStuck node, address }
      else none := by
  have bit : ∀ valid : Option UInt64, (valid.map fun valid => valid != 0).getD false = valid.any (· != 0) := by
    intro valid
    cases valid <;> rfl
  have other : (Text.trimEndNumeric node.name ≠ "entry" ∧ Text.trimEndNumeric node.name ≠ "xq_") ↔
      ¬ isEntry node := by
    simp [isEntry]
  unfold Transaction.fromNode
  by_cases entry : isEntry node
  · rw [if_neg (by rw [other]; exact not_not.mpr entry), if_pos entry, bit]
    change (decodedAddress node).bind (fun address => some _) = _
    cases decodedAddress node <;> rfl
  · rw [if_pos (other.mpr entry), if_neg entry]

/-- The stuck transactions that the queue loop sees are the entries with an address. -/
theorem stuck_transactions_eq (queue : Node) :
    ((queue.children.filterMap fun entry => Transaction.fromNode entry.2).filter Transaction.valid).map
        Transaction.address =
      ((queueEntries queue).filter isStuck).filterMap decodedAddress := by
  rw [queueEntries]
  induction queue.children with
  | nil => rfl
  | cons child rest ih =>
      rw [List.filterMap_cons, transaction_from_node_eq, List.map_cons, List.filter_cons]
      split_ifs with entry
      · rw [List.filter_cons]
        cases address : decodedAddress child.2 with
        | none =>
            simp only [Option.map_none, ih]
            split_ifs
            · rw [List.filterMap_cons, address]
            · rfl
        | some found =>
            simp only [Option.map_some, List.filter_cons]
            split_ifs
            · rw [List.filterMap_cons, address, List.map_cons, ih]
            · exact ih
      · exact ih

/-- The state that the addresses of the stuck entries lead to. -/
def stateOf (core : Node) : TransactionQueueState :=
  if transactionQueue core = none then .notCaptured
  else .ofStuck ((stuckEntries core).filterMap decodedAddress)

theorem three_strike_timeout_eq {core : Node} (timer : TimerError core) :
    analyzeThreeStrikeTimeout core = tagWithPriority 10 (.coreTimeout (stateOf core)) := by
  obtain ⟨bank, read, valid, code⟩ := timer
  unfold analyzeThreeStrikeTimeout stateOf stuckEntries coreEntries
  simp only [read, valid, code, Bool.not_true, Bool.false_eq_true, if_false, ne_eq, not_true_eq_false]
  change tagWithPriority 10 (.coreTimeout (((transactionQueue core).bind TransactionQueue.fromNode).elim
    .notCaptured TransactionQueue.triage)) = _
  cases transactionQueue core with
  | none => rfl
  | some queue =>
      simp only [Option.bind_some, TransactionQueue.fromNode, Option.elim_some, TransactionQueue.triage,
        TransactionQueue.triage_entries_eq, stuck_transactions_eq, reduceCtorEq, if_false]

omit [UnicodeTables] in
theorem core_mca_tags {core : Node} {tag : TriageTag} (pushed : tag ∈ analyzeCoreMca core) :
    ∃ bank mscod mcacod, tag.tag = .machineCheck bank mscod mcacod := by
  unfold analyzeCoreMca at pushed
  split at pushed
  · cases pushed
  · obtain ⟨entry, _, member⟩ := List.mem_flatMap.mp pushed
    split at member
    · cases member
    · unfold triageMcaBank at member
      split_ifs at member
      · cases member
      · rw [List.mem_singleton.mp member]
        exact ⟨_, _, _, rfl⟩

/-- The only state that is reported. -/
theorem reported_iff {core : Node} (timer : TimerError core) (state : TransactionQueueState) :
    Reported core state ↔ state = stateOf core := by
  have thread : (core.get "thread").isSome := by
    obtain ⟨bank, read, _⟩ := timer
    obtain ⟨node, found, _⟩ := Option.bind_eq_some_iff.mp read
    have path : Text.split '.' "thread.arch_state.mca.bank3" = ["thread", "arch_state", "mca", "bank3"] := by
      decide
    rw [Node.getByPath, path, Node.walk_cons] at found
    obtain ⟨child, stored, _⟩ := Option.bind_eq_some_iff.mp found
    rw [stored]
    rfl
  unfold Reported
  rw [analyzeCore, Node.explore_eq, if_pos thread, Option.getD_some, three_strike_timeout_eq timer,
    List.map_append, List.mem_append]
  constructor
  · rintro (own | other)
    · exact (Tag.coreTimeout.inj (List.mem_singleton.mp own))
    · obtain ⟨tag, pushed, same⟩ := List.mem_map.mp other
      obtain ⟨bank, mscod, mcacod, check⟩ := core_mca_tags pushed
      rw [same] at check
      cases check
  · rintro rfl
    exact .inl (List.mem_singleton.mpr rfl)

/-! ## When the report is right -/

omit [UnicodeTables] in
theorem is_stuck_iff (entry : Node) :
    isStuck entry ↔ ∃ valid, decodedValid entry = some valid ∧ valid ≠ 0 := by
  unfold isStuck
  cases decodedValid entry <;> simp

/-- No entry is stuck when all captured valid bits are zero. -/
theorem stuck_entries_eq_nil_iff (core : Node) :
    stuckEntries core = [] ↔ ∀ entry ∈ coreEntries core, ∀ valid, decodedValid entry = some valid → valid = 0 := by
  rw [stuckEntries, List.filter_eq_nil_iff]
  simp only [is_stuck_iff, not_exists, not_and, ne_eq, not_not]

theorem addresses_le (core : Node) :
    ((stuckEntries core).filterMap decodedAddress).length ≤ (stuckEntries core).length :=
  List.length_filterMap_le _ _

/-- Without a queue nothing was captured. -/
theorem reports_captured_of_missing {core : Node} (timer : TimerError core)
    (missing : transactionQueue core = none) : ReportsCaptured core := by
  have reported : ∀ state, Reported core state ↔ state = .notCaptured := by
    intro state
    rw [reported_iff timer, stateOf, if_pos missing]
  have entries : coreEntries core = [] := by rw [coreEntries, missing, Option.elim_none]
  constructor
  · rw [reported]
    rintro ⟨⟩
  · rw [reported, stuckEntries, entries]
    simp
  · intro address
    rw [reported]
    rintro ⟨⟩
  · intro _
    exact (reported _).mpr rfl

theorem reported_queue_iff {core : Node} (timer : TimerError core) (present : transactionQueue core ≠ none)
    (state : TransactionQueueState) :
    Reported core state ↔ .ofStuck ((stuckEntries core).filterMap decodedAddress) = state := by
  rw [reported_iff timer, stateOf, if_neg present]
  exact eq_comm

/-- Where no stuck entry lacks its address, there are as many addresses. -/
theorem addresses_length {core : Node} (addressed : ∀ entry ∈ stuckEntries core, decodedAddress entry ≠ none) :
    ((stuckEntries core).filterMap decodedAddress).length = (stuckEntries core).length := by
  refine le_antisymm (addresses_le core) (not_lt.mp ?_)
  rw [List.length_filterMap_lt_length_iff_exists]
  rintro ⟨entry, member, missing⟩
  exact addressed entry member missing

theorem queue_captured_of_reports {core : Node} (timer : TimerError core) (right : ReportsCaptured core) :
    QueueCaptured core := by
  by_cases missing : transactionQueue core = none
  · exact .inl missing
  have reported := reported_queue_iff timer missing
  refine .inr ⟨?_, ?_⟩
  · -- Were no valid bit captured, the state would have to be another one.
    by_contra none
    have notCaptured := right.notCaptured fun entry member => by
      by_contra some
      exact none ⟨entry, member, some⟩
    exact TransactionQueueState.of_stuck_ne_not_captured ((reported _).mp notCaptured)
  · rw [or_iff_not_imp_right, not_le]
    intro few entry member
    match addresses : (stuckEntries core).filterMap decodedAddress with
    | [] =>
        have silent := right.noStuck ((reported _).mpr (TransactionQueueState.of_stuck_eq_no_stuck_iff.mpr addresses))
        rw [(stuck_entries_eq_nil_iff core).mpr silent.2] at member
        cases member
    | [address] =>
        obtain ⟨only, single, found⟩ :=
          right.single address ((reported _).mpr (TransactionQueueState.of_stuck_eq_single_iff.mpr addresses))
        rw [single, List.mem_singleton] at member
        simp [member, found]
    | _ :: _ :: _ =>
        rw [addresses, List.length_cons, List.length_cons] at few
        omega

theorem reports_captured_of_queue {core : Node} (timer : TimerError core) (present : transactionQueue core ≠ none)
    (decoded : ∃ entry ∈ coreEntries core, decodedValid entry ≠ none)
    (addressed : (∀ entry ∈ stuckEntries core, decodedAddress entry ≠ none) ∨
      2 ≤ ((stuckEntries core).filterMap decodedAddress).length) : ReportsCaptured core := by
  have reported := reported_queue_iff timer present
  have fewer := addresses_le core
  have counted := addressed.imp_left addresses_length
  constructor
  · intro noStuck
    rw [reported, TransactionQueueState.of_stuck_eq_no_stuck_iff] at noStuck
    rw [noStuck, List.length_nil] at counted
    exact ⟨decoded, (stuck_entries_eq_nil_iff core).mp (List.length_eq_zero_iff.mp (by omega))⟩
  · rw [reported, TransactionQueueState.of_stuck_eq_multiple_iff]
    omega
  · intro address single
    rw [reported, TransactionQueueState.of_stuck_eq_single_iff] at single
    rw [single, List.length_singleton] at counted
    obtain ⟨entry, only⟩ := List.length_eq_one_iff.mp (by omega : (stuckEntries core).length = 1)
    obtain ⟨found, member, address⟩ := List.mem_filterMap.mp (single ▸ List.mem_singleton_self address)
    rw [only, List.mem_singleton] at member
    exact ⟨entry, only, member ▸ address⟩
  · intro none
    obtain ⟨entry, member, some⟩ := decoded
    exact absurd (none entry member) some

/-- The report on a timeout is what was captured exactly when the queue was
captured as far as the finding needs it. -/
theorem reports_captured_iff (core : Node) (timer : TimerError core) :
    ReportsCaptured core ↔ QueueCaptured core := by
  constructor
  · exact queue_captured_of_reports timer
  · intro captured
    by_cases missing : transactionQueue core = none
    · exact reports_captured_of_missing timer missing
    · obtain ⟨decoded, addressed⟩ := captured.resolve_left missing
      exact reports_captured_of_queue timer missing decoded addressed

/-! ## Cores of one entry -/

def sectionOf (name : String) (children : List (String × Node)) : Node := { name, kind := .sect, children }

def fieldOf (name : String) (value : UInt64) : String × Node := (name, { name, kind := .field value })

/-- A core with an internal timer error and one entry in its queue. -/
def timedOutCore (entry : List (String × Node)) : Node :=
  sectionOf "core0" [
    ("thread", sectionOf "thread" [("arch_state", sectionOf "arch_state" [("mca", sectionOf "mca" [
      ("bank3", sectionOf "bank3" [fieldOf "status" 0xbe000000e1840400])])])]),
    ("xq", sectionOf "xq" [("entry0", sectionOf "entry0" entry)])]

omit [UnicodeTables] in
theorem timer_error_of_timed_out (entry : List (String × Node)) : TimerError (timedOutCore entry) :=
  ⟨{ id := 3, status := { valid := true, mscod := .raw 0xe184, mcacod := .internalTimerError } },
    by rfl, by decide, by decide⟩

omit [UnicodeTables] in
theorem stuck_entry_reported :
    @ReportsCaptured .ascii (timedOutCore [fieldOf "addr" 0x42, fieldOf "valid" 1]) :=
  (@reports_captured_iff .ascii (timedOutCore [fieldOf "addr" 0x42, fieldOf "valid" 1])
    (timer_error_of_timed_out _)).mpr (.inr (by decide +kernel))

omit [UnicodeTables] in
/-- An entry of which only the address was captured counts as not stuck. -/
theorem uncaptured_entry_reported_not_stuck :
    ¬ ∀ (_ : UnicodeTables) (core : Node), TimerError core → ReportsCaptured core := by
  intro reports
  let core := timedOutCore [fieldOf "addr" 0x42]
  have timer := timer_error_of_timed_out [fieldOf "addr" 0x42]
  have right := @ReportsCaptured.notCaptured .ascii core (reports .ascii core timer)
  have none : ∀ entry ∈ @coreEntries .ascii core, decodedValid entry = none := by decide +kernel
  have state := (@reported_iff .ascii core timer _).mp (right none)
  have noStuck : @stateOf .ascii core = .noStuckTransaction := by decide +kernel
  rw [noStuck] at state
  cases state

end Analyzer

end Crashlog
