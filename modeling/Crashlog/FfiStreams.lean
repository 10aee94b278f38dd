import Crashlog.FfiContract

/-!
# Iterators and exports of C callers

An iterator and an export give out what was in them, piece by piece and each
piece once, whatever else is called in between.
-/

namespace Crashlog.Ffi

open Bytes

/-! ## Pieces -/

/-- A piece of an iterator or of an export. -/
inductive Item where
  | crashlog (crashlog : CrashLog)
  | node (ref : NodeRef)
  | byte (byte : Byte)

/-- The pieces that are still in an object. -/
def Object.pending : Object → Option (List Item)
  | .crashlogs content => some (content.crashlogs.map .crashlog)
  | .children content =>
      some (content.children.map fun name => .node { content.node with path := content.node.path ++ [name] })
  | .exported content => some (content.data.map .byte)
  | _ => none

def pendingAt (address : Address) (heap : Heap) : Option (List Item) := (heap.lookup address).bind Object.pending

/-- The pieces that a call gives out of an object. -/
def drawn (address : Address) (exchange : Contract.Exchange Heap Call Response) : List Item :=
  match exchange.call, exchange.response with
  | .next crashlogs, .pointer pointer =>
      if crashlogs = address then
        match exchange.after.lookup pointer with
        | some (.crashlog crashlog) => [.crashlog crashlog]
        | _ => []
      else []
  | .getNextNodeChild children, .node (some ref) => if children = address then [.node ref] else []
  | .readExport pointer _, .written count memory =>
      if pointer = address then (memory.take count).map .byte else []
  | _, _ => []

section Streams

variable {heap after : Heap} {address pointer : Address} {object : Object} {left rest : List Item}

theorem pending_eq (stored : heap.lookup address = some object) : pendingAt address heap = object.pending := by
  rw [pendingAt, stored, Option.bind_some]

theorem pending_congr (same : after.lookup address = heap.lookup address) :
    pendingAt address after = pendingAt address heap := by
  rw [pendingAt, pendingAt, same]

theorem pending_insert (object : Object) (heap : Heap) :
    pendingAt address (heap.insert address object) = object.pending :=
  pending_eq (AList.lookup_insert _)

theorem pending_insert_ne (apart : address ≠ pointer) :
    pendingAt address (heap.insert pointer object) = pendingAt address heap :=
  pending_congr (AList.lookup_insert_ne apart)

theorem pending_erase : pendingAt address (heap.erase address) = none := by
  rw [pendingAt, AList.lookup_erase, Option.bind_none]

theorem pending_erase_ne (apart : address ≠ pointer) :
    pendingAt address (heap.erase pointer) = pendingAt address heap :=
  pending_congr (AList.lookup_erase_ne apart)

theorem ne_of_pending (held : pendingAt address heap = some left) (other : pendingAt pointer heap = none) :
    address ≠ pointer := by
  rintro rfl
  rw [held] at other
  cases other

theorem ne_of_fresh (held : pendingAt address heap = some left) (fresh : pointer ≠ 0 ∧ heap.lookup pointer = none) :
    address ≠ pointer :=
  ne_of_pending held (by rw [pendingAt, fresh.2, Option.bind_none])

variable [UnicodeTables] {library : Library} {call : Call} {response : Response}

omit [UnicodeTables] in
/-- A call that writes at none of the pieces, and gives out none. -/
theorem draws_nothing (held : pendingAt address heap = some left) (remains : pendingAt address after = some rest)
    (quiet : drawn address ⟨call, response, after⟩ = []) (same : pendingAt address after = pendingAt address heap) :
    drawn address ⟨call, response, after⟩ ++ rest = left := by
  rw [held, remains] at same
  rw [quiet, List.nil_append]
  exact Option.some.inj same

omit [UnicodeTables] in
theorem idle_draws_nothing (idle : Idle call response) (null : heap.lookup 0 = none)
    (held : pendingAt address heap = some left) : drawn address ⟨call, response, heap⟩ = [] := by
  have apart : (0 : Address) ≠ address := by
    rintro rfl
    rw [pendingAt, null] at held
    cases held
  cases idle with
  | made maker => cases call <;> first | rfl | cases maker
  | next => exact if_neg apart
  | read buffer => exact if_neg apart
  | _ => rfl

omit [UnicodeTables] in
theorem makes_draws_nothing (makes : Makes library heap call object) :
    drawn address ⟨call, .pointer pointer, after⟩ = [] := by
  cases makes <;> rfl

/-- What one call gives out of an object was in it, at its front. -/
theorem does_draw (null : heap.lookup 0 = none) (does : Does library heap call response after)
    (held : pendingAt address heap = some left) (remains : pendingAt address after = some rest) :
    drawn address ⟨call, response, after⟩ ++ rest = left := by
  cases does with
  | idle idle => exact draws_nothing held remains (idle_draws_nothing idle null held) rfl
  | made makes fresh =>
      exact draws_nothing held remains (makes_draws_nothing makes) (pending_insert_ne (ne_of_fresh held fresh))
  | @took crashlogs pointer first others stored fresh =>
      have apart := ne_of_fresh held fresh
      by_cases own : crashlogs = address
      · subst own
        rw [pending_insert_ne apart, pending_insert] at remains
        rw [pending_eq stored] at held
        cases remains
        cases held
        simp only [drawn, if_true, AList.lookup_insert]
        rfl
      · refine draws_nothing held remains (if_neg own) ?_
        rw [pending_insert_ne apart, pending_insert_ne (Ne.symm own)]
  | @tookAll crashlogs stored =>
      by_cases own : crashlogs = address
      · subst own
        rw [pending_erase] at remains
        cases remains
      · exact draws_nothing held remains (if_neg own) (pending_erase_ne (Ne.symm own))
  | decoded stored read decodes fresh =>
      refine draws_nothing held remains rfl ?_
      have apart := ne_of_pending held (by rw [pending_eq stored]; rfl)
      rw [pending_insert_ne (ne_of_fresh held fresh), pending_insert_ne apart]
  | decodedWithoutCm stored read decodes fresh =>
      exact draws_nothing held remains rfl (pending_insert_ne (ne_of_fresh held fresh))
  | @read pointer data buffer stored =>
      by_cases own : pointer = address
      · subst own
        rw [pending_insert] at remains
        rw [pending_eq stored] at held
        cases remains
        cases held
        simp only [drawn, if_true, List.take_left]
        rw [← List.map_append, List.take_append_drop]
      · exact draws_nothing held remains (if_neg own) (pending_insert_ne (Ne.symm own))
  | @child pointer ref name others node stored found =>
      by_cases own : pointer = address
      · subst own
        rw [pending_insert] at remains
        rw [pending_eq stored] at held
        cases remains
        cases held
        simp only [drawn, if_true]
        rfl
      · exact draws_nothing held remains (if_neg own) (pending_insert_ne (Ne.symm own))
  | @childrenEnd pointer ref stored =>
      by_cases own : pointer = address
      · subst own
        rw [pending_erase] at remains
        cases remains
      · exact draws_nothing held remains rfl (pending_erase_ne (Ne.symm own))
  | found found => exact draws_nothing held remains rfl rfl
  | @released call pointer releases =>
      have quiet : drawn address ⟨call, .unit, heap.erase pointer⟩ = [] := by cases releases <;> rfl
      by_cases own : pointer = address
      · subst own
        rw [pending_erase] at remains
        cases remains
      · exact draws_nothing held remains quiet (pending_erase_ne (Ne.symm own))
  | @releasedNodes tree root stored =>
      have apart := ne_of_pending held (by rw [pending_eq stored]; rfl)
      exact draws_nothing held remains rfl (pending_erase_ne apart)

/-- An object with pieces goes when it is empty, unless its caller releases an export. -/
theorem does_end (does : Does library heap call response after) (held : pendingAt address heap = some left)
    (gone : after.lookup address = none) : left = [] ∨ call = .releaseExport address := by
  have present : heap.lookup address ≠ none := by
    intro missing
    rw [pendingAt, missing] at held
    cases held
  have after_insert {pointer : Address} {object : Object} {between : Heap}
      (kept : between.lookup address ≠ none) : AList.lookup address (between.insert pointer object) ≠ none := by
    by_cases own : address = pointer
    · subst own
      rw [AList.lookup_insert]
      simp
    · rwa [AList.lookup_insert_ne own]
  cases does with
  | idle idle => exact absurd gone present
  | made makes fresh => exact absurd gone (after_insert present)
  | took stored fresh => exact absurd gone (after_insert (after_insert present))
  | @tookAll crashlogs stored =>
      by_cases own : crashlogs = address
      · subst own
        rw [pending_eq stored] at held
        exact .inl (Option.some.inj held).symm
      · rw [AList.lookup_erase_ne (Ne.symm own)] at gone
        exact absurd gone present
  | decoded stored read decodes fresh => exact absurd gone (after_insert (after_insert present))
  | decodedWithoutCm stored read decodes fresh => exact absurd gone (after_insert present)
  | read stored => exact absurd gone (after_insert present)
  | child stored found => exact absurd gone (after_insert present)
  | @childrenEnd pointer ref stored =>
      by_cases own : pointer = address
      · subst own
        rw [pending_eq stored] at held
        exact .inl (Option.some.inj held).symm
      · rw [AList.lookup_erase_ne (Ne.symm own)] at gone
        exact absurd gone present
  | found found => exact absurd gone present
  | @released call pointer releases =>
      by_cases own : pointer = address
      · subst own
        cases releases with
        | exported stored => exact .inr rfl
        | crashlog stored =>
            rw [pending_eq stored] at held
            cases held
        | context stored =>
            rw [pending_eq stored] at held
            cases held
      · rw [AList.lookup_erase_ne (Ne.symm own)] at gone
        exact absurd gone present
  | @releasedNodes tree root stored =>
      have apart := ne_of_pending held (by rw [pending_eq stored]; rfl)
      rw [AList.lookup_erase_ne apart] at gone
      exact absurd gone present

theorem pieces_drawn (library : Library) (address : Address) :
    library.contract.Draws Agrees (pendingAt address) (drawn address) where
  step _ _ _ _ _ agrees _ returned held remains := does_draw agrees.null (call_does returned) held remains

/-- While a caller holds an iterator or an export, it gets the pieces of it in
their order and each piece once, whatever else it calls. The object goes when
it has no more pieces, or when the caller releases the export. -/
theorem pieces_once (library : Library) (ledger last : Ledger) (heap final : Heap)
    (before trace : List (Contract.Exchange Heap Call Response)) (address : Address) (left : List Item)
    (reached : library.contract.Session .start ∅ before ledger heap) (held : pendingAt address heap = some left)
    (session : library.contract.Session ledger heap trace last final)
    (throughout : ∀ exchange ∈ trace, (pendingAt address exchange.after).isSome) :
    ∃ rest, pendingAt address final = some rest ∧ trace.flatMap (drawn address) ++ rest = left ∧
      ∀ call response after, last.Allows call → library.call call final = .ok (response, after) →
        after.lookup address = none → rest = [] ∨ call = .releaseExport address := by
  have agrees := (contract_keeps library).session reached agrees_start
  obtain ⟨rest, remains, pieces⟩ :=
    Contract.Draws.session (contract_keeps library) (pieces_drawn library address) session agrees held throughout
  refine ⟨rest, remains, pieces, fun call response after _ returned gone => ?_⟩
  exact does_end (call_does returned) remains gone

end Streams

def mcaPointer (name : String) : NodeRef := { tree := 3, path := [name] }

def firstTaken : Heap := childrenHeap.insert 4 (.children { node := rootPointer, children := ["mca0"] })

def exportedBetween : Heap := firstTaken.insert 5 (.exported { data := mcaLog.toBytes })

def bothTaken : Heap := exportedBetween.insert 4 (.children { node := rootPointer, children := [] })

def fourBytes : Buffer where
  memory := [0, 0, 0, 0]
  size := 4
  region := by decide
  usize := by decide

/-- Both children of the root, with an export and a look at a name in between. -/
def childTrace : List (Contract.Exchange Heap Call Response) :=
  [⟨.getNextNodeChild 4, .node (some (mcaPointer "mca")), firstTaken⟩,
    ⟨.exportToCper 2, .pointer 5, exportedBetween⟩,
    ⟨.getNodeName (some (mcaPointer "mca")) fourBytes, .written 4 [0x6d, 0x63, 0x61, 0], exportedBetween⟩,
    ⟨.getNextNodeChild 4, .node (some (mcaPointer "mca0")), bothTaken⟩]

def childLedger : Ledger :=
  (((childrenLedger.obtain (mcaPointer "mca")).hold 5 .exported).obtain (mcaPointer "mca0"))

/-- Each child once. -/
theorem mca_children_once :
    ∃ rest, pendingAt 4 bothTaken = some rest ∧
      childTrace.flatMap (drawn 4) ++ rest = [.node (mcaPointer "mca"), .node (mcaPointer "mca0")] ∧
      ∀ call response after, childLedger.Allows call →
        @Library.call .ascii plainLibrary call bothTaken = .ok (response, after) → after.lookup 4 = none →
          rest = [] ∨ call = .releaseExport 4 := by
  refine @pieces_once .ascii plainLibrary childrenLedger childLedger childrenHeap bothTaken _ childTrace 4 _
    children_session rfl ?_ ?_
  · refine .step (.inr ⟨rootPointer, rfl⟩) rfl (.step (.inr rfl) rfl (.step ?_ rfl
      (.step (.inr ⟨rootPointer, rfl⟩) rfl (.done _ _))))
    rintro ref same
    cases same
    exact .inl rfl
  · rw [childTrace, List.forall_mem_cons, List.forall_mem_cons, List.forall_mem_cons, List.forall_mem_singleton]
    exact ⟨rfl, rfl, rfl, rfl⟩

end Crashlog.Ffi
