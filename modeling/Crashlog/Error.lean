import Mathlib.Init

/-!
# Errors of the library

The library reports every failure through one error type. Its variants carry
the collateral index or the record version they complain about, so these
plain data types are declared here, before the code that computes with them.
-/

namespace Crashlog

/-- Four strings that identify a product; undefined elements are `all`. -/
structure PVSS where
  product : String := "all"
  variant : String := "all"
  stepping : String := "all"
  security : String := "all"
  deriving DecidableEq, Repr

/-- The location of an item below a `PVSS`. -/
structure ItemPath where
  elements : List String
  deriving DecidableEq, Repr

/-- The first dword of a Crash Log record. -/
structure Version where
  revision : UInt32 := 0
  headerType : UInt16 := 0
  productId : UInt32 := 0
  recordType : UInt8 := 0
  consumed : Bool := false
  cldic : Bool := false
  deriving DecidableEq, Repr

/-- The reasons for which an unsigned decimal number is refused. -/
inductive IntErrorKind where
  | empty
  | invalidDigit
  | posOverflow
  deriving DecidableEq, Repr

inductive Error where
  | internalError
  | invalidCrashLog
  | noCrashLogFound
  | missingCollateral (pvss : PVSS) (path : ItemPath)
  | missingDecodeDefinitions (version : Version)
  | invalidHeader
  | emptyRegion
  | invalidHeaderType (headerType : UInt16)
  | invalidRecordType (recordType : UInt8)
  | invalidProductId (productId : UInt32)
  | utf8Error
  | parseIntError (kind : IntErrorKind)
  | ioError (message : String)
  deriving DecidableEq, Repr

/-- A missing value becomes the given error. -/
def okOr {α : Type*} (value : Option α) (error : Error) : Except Error α :=
  match value with
  | some value => .ok value
  | none => .error error

@[simp] theorem ok_or_eq_ok {α : Type*} {value : Option α} {error : Error} {result : α} :
    okOr value error = .ok result ↔ value = some result := by
  cases value <;> simp [okOr]

theorem except_bind_eq_ok {α β ε : Type} {first : Except ε α} {next : α → Except ε β} {result : β} :
    (first >>= next) = .ok result ↔ ∃ value, first = .ok value ∧ next value = .ok result := by
  cases first with
  | error error => simp [Bind.bind, Except.bind]
  | ok value => simp [Bind.bind, Except.bind]

end Crashlog
