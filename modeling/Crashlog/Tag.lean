import Crashlog.Traversal

/-!
# Triage tags

The findings of the triage and the pieces of a record they are read from:
machine check banks, entries of a transaction queue, the status of the Crash
Log agent.
-/

namespace Crashlog

/-! ## Machine checks -/

inductive MachineCheckErrorCode where
  | raw (mcacod : UInt16)
  | noError
  | unclassified
  | microcodeRomParityError
  | externalError
  | frcError
  | internalParityError
  | smmHandlerCodeAccessViolation
  | internalTimerError
  | ioError
  | internalUnclassified (code : UInt16)
  deriving DecidableEq, Repr

namespace MachineCheckErrorCode

def toString : MachineCheckErrorCode → String
  | raw mcacod => "MCACOD_" ++ Text.hex4 mcacod ++ "H"
  | noError => "NO_ERROR"
  | unclassified => "UNCLASSIFIED"
  | microcodeRomParityError => "MICROCODE_ROM_PARITY_ERROR"
  | externalError => "EXTERNAL_ERROR"
  | frcError => "FRC_ERROR"
  | internalParityError => "INTERNAL_PARITY_ERROR"
  | smmHandlerCodeAccessViolation => "SMM_HANDLER_CODE_ACCESS_VIOLATION"
  | internalTimerError => "INTERNAL_TIMER_ERROR"
  | ioError => "IO_ERROR"
  | internalUnclassified code => "INTERNAL_UNCLASSIFIED_" ++ Text.hex4 code ++ "H"

def fromU16 (code : UInt16) : MachineCheckErrorCode :=
  match code.toNat with
  | 0b0000000000000000 => noError
  | 0b0000000000000001 => unclassified
  | 0b0000000000000010 => microcodeRomParityError
  | 0b0000000000000011 => externalError
  | 0b0000000000000100 => frcError
  | 0b0000000000000101 => internalParityError
  | 0b0000000000000110 => smmHandlerCodeAccessViolation
  | 0b0000010000000000 => internalTimerError
  | 0b0000111000001011 => ioError
  | _ => if code >>> 10 = 1 then internalUnclassified (code &&& 0x3FF) else raw code

end MachineCheckErrorCode

inductive ModelSpecificCode where
  | raw (mscod : UInt16)
  deriving DecidableEq, Repr

namespace ModelSpecificCode

def toString : ModelSpecificCode → String
  | raw mscod => "MSCOD_" ++ Text.hex4 mscod ++ "H"

def fromU16 (code : UInt16) : ModelSpecificCode := raw code

end ModelSpecificCode

structure Status where
  valid : Bool
  mscod : ModelSpecificCode
  mcacod : MachineCheckErrorCode
  deriving DecidableEq, Repr

/-- A register that was not captured holds a marker. -/
def Status.fromU64 (status : UInt64) : Option Status :=
  if status &&& 0xFFFFFFFF = 0xDEADBEEF then none
  else some {
    valid := status >>> 63 != 0
    mscod := .fromU16 ((status >>> 16) &&& 0xFFFF).toUInt16
    mcacod := .fromU16 (status &&& 0xFFFF).toUInt16 }

structure Bank where
  id : Nat
  status : Status
  deriving DecidableEq, Repr

namespace Bank

/-- The number in the name of a bank. -/
def idFromName (name : String) : Option Nat :=
  (Text.stripPrefix "bank" name).bind fun id => (Text.parseUsize id).toOption

def fromNode (bank : Node) : Option Bank := do
  let status ← (bank.get "status").bind Node.value
  let id ← idFromName bank.name
  let status ← Status.fromU64 status
  some { id, status }

end Bank

/-! ## Transaction queues -/

inductive TransactionQueueState where
  | multipleStuckTransaction
  | singleStuckTransaction (address : UInt64)
  | noStuckTransaction
  | notCaptured
  deriving DecidableEq, Repr

structure Transaction where
  valid : Bool
  address : UInt64
  deriving DecidableEq, Repr

def Transaction.fromNode [UnicodeTables] (node : Node) : Option Transaction :=
  let basename := Text.trimEndNumeric node.name
  if basename ≠ "entry" ∧ basename ≠ "xq_" then none
  else do
    let valid := (((node.get "valid").bind Node.value).map fun valid => valid != 0).getD false
    let address ← ((node.get "addr").bind Node.value).or
      (((node.get "addr_51_6").bind Node.value).map fun value => value <<< (6 : UInt64))
    some { valid, address }

structure TransactionQueue where
  entries : List Transaction := []
  deriving DecidableEq, Repr

namespace TransactionQueue

def fromNode [UnicodeTables] (node : Node) : Option TransactionQueue :=
  some { entries := node.children.filterMap fun entry => Transaction.fromNode entry.2 }

/-- The loop of `triage` with the stuck transaction found so far. -/
def triageEntries (stuckTransaction : Option Transaction) : List Transaction → TransactionQueueState
  | [] =>
      match stuckTransaction with
      | some stuckTransaction => .singleStuckTransaction stuckTransaction.address
      | none => .noStuckTransaction
  | entry :: rest =>
      if !entry.valid then triageEntries stuckTransaction rest
      else if stuckTransaction.isSome then .multipleStuckTransaction
      else triageEntries (some entry) rest

def triage (xq : TransactionQueue) : TransactionQueueState := triageEntries none xq.entries

end TransactionQueue

/-! ## Crash Log agent -/

inductive CrashLogAgentStatus where
  | success
  | invalidOpcode
  | recipeOverflow
  | storageOverflow
  | invalidXtor
  | collectionError
  | nestedCall
  | unexpectedRet
  | mismatchingAgentId
  | mismatchingStaticConfigRevision
  | incompleteRecipe
  | recipeNotLoaded
  | unsupportedHeaderType
  | completionStatusOverflow
  | invalidTxCode
  | inProgress
  deriving DecidableEq, Repr

namespace CrashLogAgentStatus

def fromU64 (status : UInt64) : Option CrashLogAgentStatus :=
  match status.toNat with
  | 0 => some success
  | 1 => some invalidOpcode
  | 2 => some recipeOverflow
  | 3 => some storageOverflow
  | 4 => some invalidXtor
  | 5 => some collectionError
  | 6 => some nestedCall
  | 7 => some unexpectedRet
  | 8 => some mismatchingAgentId
  | 9 => some mismatchingStaticConfigRevision
  | 10 => some incompleteRecipe
  | 11 => some recipeNotLoaded
  | 12 => some unsupportedHeaderType
  | 13 => some completionStatusOverflow
  | 14 => some invalidTxCode
  | 15 => some inProgress
  | _ => none

def isError (status : CrashLogAgentStatus) : Bool :=
  !(decide (status = success) || decide (status = inProgress))

end CrashLogAgentStatus

/-! ## Tags -/

inductive ResetKind where
  | global
  | firmwareGlobal
  | hostPartition
  deriving DecidableEq, Repr

inductive CrashLogReason where
  | raw (value : UInt32)
  deriving DecidableEq, Repr

inductive Tag where
  | resetCause (kind : ResetKind) (cause : String)
  | crashLogReason (record : String) (reason : CrashLogReason)
  | coreTimeout (transactionQueue : TransactionQueueState)
  | machineCheck (bank : Nat) (mscod mcacod : String)
  | crashLogAgentError (status : CrashLogAgentStatus) (instructionPointer : UInt32)
  deriving DecidableEq, Repr

structure TriageTag where
  priority : Int32
  tag : Tag
  deriving DecidableEq, Repr

/-- The heap of the standard library, on a list of what was pushed. It pops a
tag of the greatest priority; which one of several is not documented. -/
class BinaryHeap where
  pop : List TriageTag → Option (TriageTag × List TriageTag)
  pop_nil : pop [] = none
  pop_greatest : ∀ tags ≠ [], ∃ greatest rest, pop tags = some (greatest, rest) ∧
    (greatest :: rest).Perm tags ∧ ∀ tag ∈ tags, tag.priority ≤ greatest.priority

namespace BinaryHeap

/-- A heap that pops the first tag of the greatest priority. -/
def popFirst : List TriageTag → Option (TriageTag × List TriageTag)
  | [] => none
  | tag :: rest =>
      match popFirst rest with
      | none => some (tag, [])
      | some (greatest, others) =>
          if greatest.priority ≤ tag.priority then some (tag, rest) else some (greatest, tag :: others)

theorem pop_first_greatest (tags : List TriageTag) (nonempty : tags ≠ []) :
    ∃ greatest rest, popFirst tags = some (greatest, rest) ∧
      (greatest :: rest).Perm tags ∧ ∀ tag ∈ tags, tag.priority ≤ greatest.priority := by
  induction tags with
  | nil => exact absurd rfl nonempty
  | cons tag rest ih =>
      by_cases empty : rest = []
      · subst empty
        exact ⟨tag, [], rfl, .refl _, by simp⟩
      · obtain ⟨greatest, others, popped, perm, bound⟩ := ih empty
        by_cases less : greatest.priority ≤ tag.priority
        · refine ⟨tag, rest, by simp [popFirst, popped, less], .refl _, ?_⟩
          intro other member
          rcases List.mem_cons.mp member with rfl | later
          · exact Int32.le_refl _
          · exact Int32.le_trans (bound other later) less
        · refine ⟨greatest, tag :: others, by simp [popFirst, popped, less], ?_, ?_⟩
          · exact (List.Perm.swap tag greatest others).trans (perm.cons tag)
          · intro other member
            rcases List.mem_cons.mp member with rfl | later
            · exact (Int32.le_total _ _).resolve_right less
            · exact bound other later

@[reducible] def first : BinaryHeap where
  pop := popFirst
  pop_nil := rfl
  pop_greatest := pop_first_greatest

variable [BinaryHeap] {tags rest : List TriageTag} {greatest : TriageTag}

theorem perm_of_pop (popped : pop tags = some (greatest, rest)) : (greatest :: rest).Perm tags := by
  by_cases empty : tags = []
  · subst empty
    rw [pop_nil] at popped
    cases popped
  · obtain ⟨other, others, again, perm, _⟩ := pop_greatest tags empty
    rw [popped] at again
    cases again
    exact perm

theorem eq_nil_of_pop (popped : pop tags = none) : tags = [] := by
  by_contra nonempty
  obtain ⟨greatest, rest, again, _⟩ := pop_greatest tags nonempty
  rw [popped] at again
  cases again

end BinaryHeap

end Crashlog
