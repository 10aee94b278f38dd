import Crashlog.Digits
import Crashlog.MachineChecks
import Crashlog.Report

/-!
# Triage lines

A tag is printed as a line of names joined by dots. Names of registers may be
anything, but each line has at most one of them, and what stands around it has
no dots of its own: from a line of the triage its tag is known again.
-/

namespace Crashlog

/-! ## Upper-case hexadecimal numbers -/

namespace Text

def upperHex (value : Nat) : String := String.ofList ((Nat.toDigits 16 value).map Char.toUpper)

theorem mem_to_digits {value : Nat} {c : Char} (member : c ∈ Nat.toDigits 16 value) :
    ∃ digit < 16, c = digit.digitChar := by
  induction value using Nat.strongRecOn with
  | ind value ih =>
      rw [Nat.toDigits_eq_if (by decide)] at member
      split_ifs at member with single
      · exact ⟨value, single, List.mem_singleton.mp member⟩
      · rcases List.mem_append.mp member with front | last
        · exact ih (value / 16) (by omega) front
        · exact ⟨value % 16, Nat.mod_lt _ (by decide), List.mem_singleton.mp last⟩

theorem digit_value_to_upper {value : Nat} {c : Char} (member : c ∈ Nat.toDigits 16 value) :
    digitValue c.toUpper = digitValue c := by
  have all : ∀ digit : Fin 16, digitValue (digit : Nat).digitChar.toUpper = digitValue (digit : Nat).digitChar := by
    decide
  obtain ⟨digit, small, rfl⟩ := mem_to_digits member
  exact all ⟨digit, small⟩

theorem parse_radix_map {radix limit : Nat} {f : Char → Char} {digits : List Char}
    (same : ∀ c ∈ digits, digitValue (f c) = digitValue c) (value : Nat) :
    parseRadix radix limit value (digits.map f) = parseRadix radix limit value digits := by
  induction digits generalizing value with
  | nil => rfl
  | cons c rest ih =>
      rw [List.forall_mem_cons] at same
      rw [List.map_cons, parseRadix, parseRadix, same.1]
      split_ifs
      · rfl
      · rfl
      · exact ih same.2 _

theorem parse_upper_digits {limit value : Nat} (small : value < limit) (count : Nat) :
    parseRadix 16 limit 0 (List.replicate count '0' ++ (Nat.toDigits 16 value).map Char.toUpper) = some value := by
  rw [parse_radix_zeros (by omega), parse_radix_map fun c => digit_value_to_upper, parse_radix_digits small]

theorem upper_hex_injective {left right : Nat} (same : upperHex left = upperHex right) : left = right := by
  have digits : (Nat.toDigits 16 left).map Char.toUpper = (Nat.toDigits 16 right).map Char.toUpper :=
    String.ofList_injective same
  have leftRead := parse_upper_digits (Nat.lt_succ_of_le (Nat.le_max_left left right)) 0
  have rightRead := parse_upper_digits (Nat.lt_succ_of_le (Nat.le_max_right left right)) 0
  rw [digits, rightRead] at leftRead
  exact (Option.some_inj.mp leftRead).symm

theorem hex4_injective {left right : UInt16} (same : hex4 left = hex4 right) : left = right := by
  have leftRead := parse_upper_digits left.toNat_lt (4 - ((Nat.toDigits 16 left.toNat).map Char.toUpper).length)
  have rightRead := parse_upper_digits right.toNat_lt (4 - ((Nat.toDigits 16 right.toNat).map Char.toUpper).length)
  have chars := String.ofList_injective same
  rw [chars, rightRead] at leftRead
  exact UInt16.toNat_inj.mp (Option.some_inj.mp leftRead).symm

theorem upper_digit_value_lt {value : Nat} {c : Char} (member : c ∈ (Nat.toDigits 16 value).map Char.toUpper) :
    digitValue c < 16 := by
  obtain ⟨lower, inside, rfl⟩ := List.mem_map.mp member
  rw [digit_value_to_upper inside]
  exact digit_value_lt inside

/-- A text without dots. -/
def Whole (text : String) : Prop := '.' ∉ text.toList

instance Whole.decidable (text : String) : Decidable (Whole text) := inferInstanceAs (Decidable ('.' ∉ text.toList))

theorem Whole.append {first second : String} (front : Whole first) (back : Whole second) : Whole (first ++ second) := by
  rw [Whole, String.toList_append, List.mem_append]
  exact not_or.mpr ⟨front, back⟩

theorem whole_upper_hex (value : Nat) : Whole (upperHex value) := by
  intro dot
  rw [upperHex, String.toList_ofList] at dot
  exact absurd (upper_digit_value_lt dot) (by decide)

theorem whole_hex4 (value : UInt16) : Whole (hex4 value) := by
  intro dot
  rw [hex4, String.toList_ofList] at dot
  rcases List.mem_append.mp dot with zero | digit
  · exact absurd (List.eq_of_mem_replicate zero) (by decide)
  · exact absurd (upper_digit_value_lt digit) (by decide)

theorem whole_nat (value : Nat) : Whole (toString value) := fun dot => absurd (nat_digits dot) (by decide)

/-- A text is cut at its first dot in one way. -/
theorem cut_first {first other rest later : String} (whole : Whole first) (otherWhole : Whole other)
    (same : first ++ "." ++ rest = other ++ "." ++ later) : first = other ∧ rest = later := by
  have cut := congrArg (splitOnce '.') same
  have dot : "." = String.singleton '.' := rfl
  rw [dot, split_once_append whole, split_once_append otherWhole, Option.some_inj, Prod.mk.injEq] at cut
  exact cut

/-- A text is cut at its last dot in one way. -/
theorem cut_last {first other rest later : String} (whole : Whole rest) (laterWhole : Whole later)
    (same : first ++ "." ++ rest = other ++ "." ++ later) : first = other ∧ rest = later := by
  have back (front ending : String) : (String.ofList (front ++ "." ++ ending).toList.reverse) =
      String.ofList ending.toList.reverse ++ "." ++ String.ofList front.toList.reverse := by
    rw [← String.toList_inj]
    simp
  have turned := congrArg (fun text => String.ofList text.toList.reverse) same
  simp only [back] at turned
  have reversed {text : String} (plain : Whole text) : Whole (String.ofList text.toList.reverse) := by
    rw [Whole, String.toList_ofList, List.mem_reverse]
    exact plain
  obtain ⟨ends, fronts⟩ := cut_first (reversed whole) (reversed laterWhole) turned
  exact ⟨String.toList_inj.mp (List.reverse_injective (String.ofList_injective fronts)),
    String.toList_inj.mp (List.reverse_injective (String.ofList_injective ends))⟩

theorem take_front (front middle ending : String) {count : Nat} (short : count ≤ front.toList.length) :
    (front ++ middle ++ ending).toList.take count = front.toList.take count := by
  rw [String.toList_append, String.toList_append, List.append_assoc]
  exact List.take_append_of_le_length short

end Text

/-! ## Lines -/

open Text

def ResetKind.display : ResetKind → String
  | global => "GLOBAL_RESET"
  | firmwareGlobal => "FIRMWARE_GLOBAL_RESET"
  | hostPartition => "HOST_PARTITION_RESET"

def CrashLogReason.display : CrashLogReason → String
  | raw value => Text.upperHex value.toNat ++ "H"

def TransactionQueueState.display : TransactionQueueState → String
  | notCaptured => "NO_XQ_INFO"
  | noStuckTransaction => "NO_STUCK_TRANSACTIONS"
  | singleStuckTransaction address => "SINGLE_STUCK_TRANSACTION." ++ Text.upperHex address.toNat ++ "H"
  | multipleStuckTransaction => "MULTIPLE_STUCK_TRANSACTIONS"

def CrashLogAgentStatus.display : CrashLogAgentStatus → String
  | success => "SUCCESS"
  | invalidOpcode => "INVALID_OPCODE"
  | recipeOverflow => "RECIPE_OVERFLOW"
  | storageOverflow => "STORAGE_OVERFLOW"
  | invalidXtor => "INVALID_XTOR"
  | collectionError => "COLLECTION_ERROR"
  | nestedCall => "NESTED_CALL"
  | unexpectedRet => "UNEXPECTED_RET"
  | mismatchingAgentId => "MISMATCHING_AGENT_ID"
  | mismatchingStaticConfigRevision => "MISMATCHING_STATIC_CONFIG_REVISION"
  | incompleteRecipe => "INCOMPLETE_RECIPE"
  | recipeNotLoaded => "RECIPE_NOT_LOADED"
  | unsupportedHeaderType => "UNSUPPORTED_HEADER_TYPE"
  | completionStatusOverflow => "COMPLETION_STATUS_OVERFLOW"
  | invalidTxCode => "INVALID_TX_CODE"
  | inProgress => "IN_PROGRESS"

namespace Tag

def display : Tag → String
  | resetCause kind cause => "RESET_CAUSE." ++ kind.display ++ "." ++ cause
  | crashLogReason record reason => "CRASHLOG_REASON." ++ record ++ "." ++ reason.display
  | coreTimeout transactionQueue => "CORE_TIMEOUT." ++ transactionQueue.display
  | machineCheck bank mscod mcacod => "MCA.BANK" ++ toString bank ++ "." ++ mcacod ++ "." ++ mscod
  | crashLogAgentError status instructionPointer =>
      "CRASHLOG_AGENT_ERROR." ++ status.display ++ ".IP_" ++ Text.upperHex instructionPointer.toNat ++ "H"

/-- The name in front of the first dot. -/
def kindName : Tag → String
  | resetCause _ _ => "RESET_CAUSE"
  | crashLogReason _ _ => "CRASHLOG_REASON"
  | coreTimeout _ => "CORE_TIMEOUT"
  | machineCheck _ _ _ => "MCA"
  | crashLogAgentError _ _ => "CRASHLOG_AGENT_ERROR"

/-- What is behind the first dot. -/
def detail : Tag → String
  | resetCause kind cause => kind.display ++ "." ++ cause
  | crashLogReason record reason => record ++ "." ++ reason.display
  | coreTimeout transactionQueue => transactionQueue.display
  | machineCheck bank mscod mcacod => "BANK" ++ toString bank ++ "." ++ (mcacod ++ "." ++ mscod)
  | crashLogAgentError status instructionPointer =>
      status.display ++ "." ++ ("IP_" ++ Text.upperHex instructionPointer.toNat ++ "H")

theorem display_eq (tag : Tag) : tag.display = tag.kindName ++ "." ++ tag.detail := by
  cases tag with
  | resetCause kind cause =>
      have front : "RESET_CAUSE." = "RESET_CAUSE" ++ "." := by decide
      calc "RESET_CAUSE." ++ kind.display ++ "." ++ cause
          = "RESET_CAUSE." ++ (kind.display ++ "." ++ cause) := by simp only [String.append_assoc]
        _ = _ := congrArg (· ++ _) front
  | crashLogReason record reason =>
      have front : "CRASHLOG_REASON." = "CRASHLOG_REASON" ++ "." := by decide
      calc "CRASHLOG_REASON." ++ record ++ "." ++ reason.display
          = "CRASHLOG_REASON." ++ (record ++ "." ++ reason.display) := by simp only [String.append_assoc]
        _ = _ := congrArg (· ++ _) front
  | coreTimeout transactionQueue =>
      have front : "CORE_TIMEOUT." = "CORE_TIMEOUT" ++ "." := by decide
      exact congrArg (· ++ transactionQueue.display) front
  | machineCheck bank mscod mcacod =>
      have front : "MCA.BANK" = "MCA" ++ "." ++ "BANK" := by decide
      calc "MCA.BANK" ++ toString bank ++ "." ++ mcacod ++ "." ++ mscod
          = "MCA" ++ "." ++ "BANK" ++ toString bank ++ "." ++ mcacod ++ "." ++ mscod :=
            congrArg (· ++ toString bank ++ "." ++ mcacod ++ "." ++ mscod) front
        _ = "MCA" ++ "." ++ ("BANK" ++ toString bank ++ "." ++ (mcacod ++ "." ++ mscod)) := by
            simp only [String.append_assoc]
  | crashLogAgentError status instructionPointer =>
      have front : "CRASHLOG_AGENT_ERROR." = "CRASHLOG_AGENT_ERROR" ++ "." := by decide
      have middle : ".IP_" = "." ++ "IP_" := by decide
      let number := upperHex instructionPointer.toNat
      calc "CRASHLOG_AGENT_ERROR." ++ status.display ++ ".IP_" ++ number ++ "H"
          = "CRASHLOG_AGENT_ERROR" ++ "." ++ status.display ++ ".IP_" ++ number ++ "H" :=
            congrArg (· ++ status.display ++ ".IP_" ++ number ++ "H") front
        _ = "CRASHLOG_AGENT_ERROR" ++ "." ++ status.display ++ ("." ++ "IP_") ++ number ++ "H" :=
            congrArg ("CRASHLOG_AGENT_ERROR" ++ "." ++ status.display ++ · ++ number ++ "H") middle
        _ = "CRASHLOG_AGENT_ERROR" ++ "." ++ (status.display ++ "." ++ ("IP_" ++ number ++ "H")) := by
            simp only [String.append_assoc]

theorem whole_kind_name (tag : Tag) : Text.Whole tag.kindName := by
  cases tag <;> simp only [kindName] <;> decide

end Tag

/-! ## The names between the dots -/

theorem ResetKind.display_injective {left right : ResetKind} (same : left.display = right.display) : left = right := by
  revert same
  cases left <;> cases right <;> decide

theorem ResetKind.whole_display (kind : ResetKind) : Whole kind.display := by
  cases kind <;> decide

namespace CrashLogAgentStatus

def all : List CrashLogAgentStatus :=
  [success, invalidOpcode, recipeOverflow, storageOverflow, invalidXtor, collectionError, nestedCall, unexpectedRet,
    mismatchingAgentId, mismatchingStaticConfigRevision, incompleteRecipe, recipeNotLoaded, unsupportedHeaderType,
    completionStatusOverflow, invalidTxCode, inProgress]

theorem display_injective {left right : CrashLogAgentStatus} (same : left.display = right.display) : left = right := by
  have listed (status : CrashLogAgentStatus) : status ∈ all := by
    cases status <;> decide
  have apart : (all.map display).Nodup := by decide
  exact List.inj_on_of_nodup_map apart (listed left) (listed right) same

theorem whole_display (status : CrashLogAgentStatus) : Whole status.display := by
  cases status <;> decide

end CrashLogAgentStatus

theorem CrashLogReason.display_injective {left right : CrashLogReason} (same : left.display = right.display) :
    left = right := by
  rcases left with ⟨left⟩
  rcases right with ⟨right⟩
  rw [display, display, String.append_left_inj] at same
  rw [UInt32.toNat_inj.mp (upper_hex_injective same)]

theorem CrashLogReason.whole_display (reason : CrashLogReason) : Whole reason.display := by
  rcases reason with ⟨value⟩
  exact (whole_upper_hex _).append (by decide)

/-- Only a line of a single transaction has a dot. -/
theorem TransactionQueueState.not_whole_single (address : UInt64) :
    ¬ Whole (singleStuckTransaction address).display := by
  have dot : '.' ∈ "SINGLE_STUCK_TRANSACTION.".toList := by decide
  have inside : '.' ∈ ("SINGLE_STUCK_TRANSACTION." ++ upperHex address.toNat ++ "H").toList := by
    rw [String.toList_append, String.toList_append]
    exact List.mem_append_left _ (List.mem_append_left _ dot)
  exact fun whole => whole inside

theorem TransactionQueueState.whole_of_fixed {state : TransactionQueueState}
    (fixed : ∀ address, state ≠ singleStuckTransaction address) : Whole state.display := by
  cases state with
  | singleStuckTransaction address => exact absurd rfl (fixed address)
  | multipleStuckTransaction => decide
  | noStuckTransaction => decide
  | notCaptured => decide

theorem TransactionQueueState.display_injective {left right : TransactionQueueState}
    (same : left.display = right.display) : left = right := by
  by_cases leftFixed : ∀ address, left ≠ singleStuckTransaction address
  · by_cases rightFixed : ∀ address, right ≠ singleStuckTransaction address
    · revert same
      cases left with
      | singleStuckTransaction address => exact absurd rfl (leftFixed address)
      | multipleStuckTransaction | noStuckTransaction | notCaptured =>
          cases right with
          | singleStuckTransaction address => exact absurd rfl (rightFixed address)
          | multipleStuckTransaction | noStuckTransaction | notCaptured => decide
    · simp only [not_forall, not_not] at rightFixed
      obtain ⟨address, rfl⟩ := rightFixed
      exact absurd (same ▸ whole_of_fixed leftFixed) (not_whole_single address)
  · simp only [not_forall, not_not] at leftFixed
    obtain ⟨address, rfl⟩ := leftFixed
    cases right with
    | singleStuckTransaction other =>
        have numbers := (String.append_right_inj _).mp ((String.append_left_inj _).mp same)
        rw [UInt64.toNat_inj.mp (upper_hex_injective numbers)]
    | multipleStuckTransaction | noStuckTransaction | notCaptured =>
        refine absurd ?_ (not_whole_single address)
        rw [same]
        decide

namespace MachineCheckErrorCode

theorem to_string_injective {left right : MachineCheckErrorCode} (same : left.toString = right.toString) :
    left = right := by
  have raws (code : UInt16) : (raw code).toString.toList.take 7 = "MCACOD_".toList.take 7 :=
    take_front "MCACOD_" (hex4 code) "H" (by decide)
  have unclassifieds (code : UInt16) :
      (internalUnclassified code).toString.toList.take 10 = "INTERNAL_UNCLASSIFIED_".toList.take 10 :=
    take_front "INTERNAL_UNCLASSIFIED_" (hex4 code) "H" (by decide)
  have others (code : UInt16) :
      (internalUnclassified code).toString.toList.take 7 = "INTERNAL_UNCLASSIFIED_".toList.take 7 :=
    take_front "INTERNAL_UNCLASSIFIED_" (hex4 code) "H" (by decide)
  have seven := congrArg (fun text => text.toList.take 7) same
  have ten := congrArg (fun text => text.toList.take 10) same
  cases left with
  | raw left =>
      rw [raws] at seven
      cases right with
      | raw right =>
          have numbers := (String.append_right_inj _).mp ((String.append_left_inj _).mp same)
          rw [hex4_injective numbers]
      | internalUnclassified right =>
          rw [others] at seven
          exact absurd seven (by decide)
      | _ => exact absurd seven (by decide)
  | internalUnclassified left =>
      rw [others] at seven
      rw [unclassifieds] at ten
      cases right with
      | raw right =>
          rw [raws] at seven
          exact absurd seven (by decide)
      | internalUnclassified right =>
          have numbers := (String.append_right_inj _).mp ((String.append_left_inj _).mp same)
          rw [hex4_injective numbers]
      | _ => exact absurd ten (by decide)
  | _ =>
      cases right with
      | raw right =>
          rw [raws] at seven
          exact absurd seven (by decide)
      | internalUnclassified right =>
          rw [unclassifieds] at ten
          exact absurd ten (by decide)
      | _ => first | rfl | exact absurd same (by decide)

theorem whole_to_string (code : MachineCheckErrorCode) : Whole code.toString := by
  cases code with
  | raw code => exact ((show Whole "MCACOD_" by decide).append (whole_hex4 code)).append (by decide)
  | internalUnclassified code =>
      exact ((show Whole "INTERNAL_UNCLASSIFIED_" by decide).append (whole_hex4 code)).append (by decide)
  | noError | unclassified | microcodeRomParityError | externalError | frcError | internalParityError
  | smmHandlerCodeAccessViolation | internalTimerError | ioError => decide

end MachineCheckErrorCode

theorem ModelSpecificCode.to_string_injective {left right : ModelSpecificCode} (same : left.toString = right.toString) :
    left = right := by
  rcases left with ⟨left⟩
  rcases right with ⟨right⟩
  have numbers := (String.append_right_inj _).mp ((String.append_left_inj _).mp same)
  rw [hex4_injective numbers]

/-! ## From a line to its tag -/

/-- The code of a machine check is one name. -/
def Tag.Coded : Tag → Prop
  | machineCheck _ _ mcacod => Whole mcacod
  | _ => True

theorem Tag.display_injective {left right : Tag} (leftCoded : left.Coded) (rightCoded : right.Coded)
    (same : left.display = right.display) : left = right := by
  rw [display_eq, display_eq] at same
  obtain ⟨kinds, details⟩ := cut_first (whole_kind_name left) (whole_kind_name right) same
  cases left with
  | resetCause kind cause =>
      cases right with
      | resetCause other later =>
          obtain ⟨kindsAgree, rfl⟩ := cut_first kind.whole_display other.whole_display details
          rw [ResetKind.display_injective kindsAgree]
      | _ => exact absurd kinds (by simp only [kindName]; decide)
  | crashLogReason record reason =>
      cases right with
      | crashLogReason other later =>
          obtain ⟨rfl, reasons⟩ := cut_last reason.whole_display later.whole_display details
          rw [CrashLogReason.display_injective reasons]
      | _ => exact absurd kinds (by simp only [kindName]; decide)
  | coreTimeout transactionQueue =>
      cases right with
      | coreTimeout other => rw [TransactionQueueState.display_injective details]
      | _ => exact absurd kinds (by simp only [kindName]; decide)
  | machineCheck bank mscod mcacod =>
      cases right with
      | machineCheck other otherMscod otherMcacod =>
          have whole (bank : Nat) : Whole ("BANK" ++ toString bank) := Whole.append (by decide) (whole_nat bank)
          obtain ⟨banks, codes⟩ := cut_first (whole bank) (whole other) details
          obtain ⟨rfl, rfl⟩ := cut_first leftCoded rightCoded codes
          rw [nat_repr_injective ((String.append_right_inj _).mp banks)]
      | _ => exact absurd kinds (by simp only [kindName]; decide)
  | crashLogAgentError status instructionPointer =>
      cases right with
      | crashLogAgentError other otherPointer =>
          obtain ⟨statuses, pointers⟩ := cut_first status.whole_display other.whole_display details
          have numbers := (String.append_right_inj _).mp ((String.append_left_inj _).mp pointers)
          rw [CrashLogAgentStatus.display_injective statuses, UInt32.toNat_inj.mp (upper_hex_injective numbers)]
      | _ => exact absurd kinds (by simp only [kindName]; decide)

namespace Analyzer

variable [UnicodeTables]

omit [UnicodeTables] in
theorem bank_tag_coded (bank : Bank) : bank.tag.Coded := bank.status.mcacod.whole_to_string

omit [UnicodeTables] in
theorem coded_of_valid_tag {bank : Bank} {tag : Tag} (valid : bank.validTag = some tag) : tag.Coded := by
  obtain ⟨_, rfl⟩ := Bank.valid_tag_eq_some.mp valid
  exact bank_tag_coded bank

theorem origins_coded {tree : Node} {origin : List String × Tag} (member : origin ∈ origins tree) :
    origin.2.Coded := by
  obtain ⟨record, _, inside⟩ := List.mem_flatMap.mp member
  obtain ⟨below, found, rfl⟩ := List.mem_map.mp inside
  rw [recordOrigins] at found
  split_ifs at found
  · obtain ⟨bank, _, reported⟩ := List.mem_filterMap.mp found
    obtain ⟨tag, valid, rfl⟩ := Option.map_eq_some_iff.mp reported
    exact coded_of_valid_tag valid
  · obtain ⟨core, _, deeper⟩ := List.mem_flatMap.mp found
    obtain ⟨origin, check, rfl⟩ := List.mem_map.mp deeper
    rw [coreMcaOrigins] at check
    split at check
    · cases check
    · obtain ⟨entry, _, reported⟩ := List.mem_filterMap.mp check
      obtain ⟨tag, valid, rfl⟩ := Option.map_eq_some_iff.mp reported
      obtain ⟨bank, _, tagged⟩ := Option.bind_eq_some_iff.mp valid
      exact coded_of_valid_tag tagged
  · cases found

theorem analyze_coded [BinaryHeap] {inputs : List Node} {tag : Tag} (member : tag ∈ analyze inputs) : tag.Coded := by
  by_cases isCheck : tag.isMachineCheck
  · obtain ⟨input, _, inside⟩ := List.mem_flatMap.mp ((analyze_perm inputs).mem_iff.mp member)
    have check : tag ∈ machineChecks (analyzeRecords input) := List.mem_filter.mpr ⟨inside, isCheck⟩
    rw [machine_checks_analyze_records] at check
    obtain ⟨origin, found, rfl⟩ := List.mem_map.mp check
    exact origins_coded found
  · cases tag with
    | machineCheck => exact absurd rfl isCheck
    | _ => trivial

/-- Tags that are printed alike are the same, whatever trees they were found
in, and a line of a machine check tells the bank and both of its codes. -/
theorem lines_told_apart [BinaryHeap] :
    Set.InjOn Tag.display {tag | ∃ inputs, tag ∈ analyze inputs} ∧
      ∀ left right : Bank, left.tag.display = right.tag.display →
        left.id = right.id ∧ left.status.mscod = right.status.mscod ∧ left.status.mcacod = right.status.mcacod := by
  refine ⟨?_, fun left right same => ?_⟩
  · rintro left ⟨_, leftFound⟩ right ⟨_, rightFound⟩ same
    exact Tag.display_injective (analyze_coded leftFound) (analyze_coded rightFound) same
  · have tags := Tag.display_injective (bank_tag_coded left) (bank_tag_coded right) same
    rw [Bank.tag, Bank.tag, Tag.machineCheck.injEq] at tags
    exact ⟨tags.1, ModelSpecificCode.to_string_injective tags.2.1, MachineCheckErrorCode.to_string_injective tags.2.2⟩

end Analyzer

end Crashlog
