import Crashlog.Contract
import Crashlog.Ffi
import Crashlog.JsonExport
import Crashlog.Session
import Mathlib.Data.List.AList

/-!
# Objects of C callers

The C interface hands out pointers to objects that it allocates, and to nodes
inside a register tree. Some objects are released by the caller, and an iterator
is released by the call that finds it at its end. A pointer that is used after
that is undefined behavior; nothing checks it.
-/

namespace Crashlog.Ffi

open Bytes

/-- Zero is the null pointer. -/
abbrev Address := Nat

/-- A pointer to a node of a tree. -/
structure NodeRef where
  tree : Address
  path : List String
  deriving DecidableEq, Repr

/-- The manager is missing where no collateral tree is embedded. -/
structure CrashLogContext where
  collateralManager : Option CollateralManager

structure CrashLogs where
  crashlogs : List CrashLog

/-- An iterator that borrows a node. -/
structure CrashLogNodeChildren where
  node : NodeRef
  children : List String

inductive Object where
  | context (content : CrashLogContext)
  | crashlogs (content : CrashLogs)
  | crashlog (content : CrashLog)
  | nodes (root : Node)
  | exported (content : CrashLogExport)
  | children (content : CrashLogNodeChildren)

abbrev Heap := AList fun _ : Address => Object

/-- Why a call does not return. Decoding with collateral panics where a hierarchy
cannot be built, and either way of decoding may search for a free name forever. -/
inductive Stop where
  | undefined
  | panic (panic : Panic)
  | undecoded
  | endless
  | outOfMemory
  deriving DecidableEq, Repr

/-- The environment of the library: its build, the embedded collateral, the
printer of JSON, and the allocator, which hands out free addresses. -/
structure Library where
  build : Build
  embeddedTree : Option (Except Error CollateralManager)
  jsonToString : Json → Option (List Byte)
  allocator : Heap → Option Address
  fresh : ∀ heap address, allocator heap = some address → address ≠ 0 ∧ heap.lookup address = none

/-! ## Dereferencing -/

/-- The objects of one type, which a pointer of that type points to. -/
structure Content (α : Type) where
  wrap : α → Object
  select : Object → Option α
  select_eq_some_iff : ∀ object content, select object = some content ↔ object = wrap content

namespace Content

def context : Content CrashLogContext where
  wrap := .context
  select
    | .context content => some content
    | _ => none
  select_eq_some_iff object content := by cases object <;> simp

def crashlogs : Content CrashLogs where
  wrap := .crashlogs
  select
    | .crashlogs content => some content
    | _ => none
  select_eq_some_iff object content := by cases object <;> simp

def crashlog : Content CrashLog where
  wrap := .crashlog
  select
    | .crashlog content => some content
    | _ => none
  select_eq_some_iff object content := by cases object <;> simp

def nodes : Content Node where
  wrap := .nodes
  select
    | .nodes root => some root
    | _ => none
  select_eq_some_iff object content := by cases object <;> simp

def exported : Content CrashLogExport where
  wrap := .exported
  select
    | .exported content => some content
    | _ => none
  select_eq_some_iff object content := by cases object <;> simp

def children : Content CrashLogNodeChildren where
  wrap := .children
  select
    | .children content => some content
    | _ => none
  select_eq_some_iff object content := by cases object <;> simp

end Content

namespace Heap

def deref {α : Type} (heap : Heap) (type : Content α) (pointer : Address) : Except Stop α :=
  match (heap.lookup pointer).bind type.select with
  | some content => .ok content
  | none => .error .undefined

def node (heap : Heap) (ref : NodeRef) : Except Stop Node := do
  let root ← heap.deref .nodes ref.tree
  match root.walk ref.path with
  | some node => .ok node
  | none => .error .undefined

end Heap

/-! ## The functions of the interface -/

namespace Library

variable (library : Library)

def alloc (data : Object) (heap : Heap) : Except Stop (Address × Heap) :=
  match library.allocator heap with
  | some address => .ok (address, heap.insert address data)
  | none => .error .outOfMemory

def dropBox {α : Type} (type : Content α) (pointer : Address) (heap : Heap) : Except Stop Heap := do
  let _ ← heap.deref type pointer
  .ok (heap.erase pointer)

def free {α : Type} (type : Content α) (pointer : Address) (heap : Heap) : Except Stop Heap :=
  if pointer = 0 then .ok heap else dropBox type pointer heap

def crashlogInit (heap : Heap) : Except Stop (Address × Heap) :=
  match library.embeddedTree with
  | none => library.alloc (.context { collateralManager := none }) heap
  | some (.ok cm) => library.alloc (.context { collateralManager := some cm }) heap
  | some (.error _) => .ok (0, heap)

/-- All functions that read a Crash Log end like this. -/
def allocCrashlog (result : Except Error CrashLog) (heap : Heap) : Except Stop (Address × Heap) :=
  match result with
  | .ok crashlog => library.alloc (.crashlog crashlog) heap
  | .error _ => .ok (0, heap)

def crashlogReadFromBuffer (data : List Byte) : Heap → Except Stop (Address × Heap) :=
  library.allocCrashlog (CrashLog.fromSlice data)

/-- What the platform reports is given. -/
def crashlogReadFromSystemTable (reported : Except Error CrashLog) : Heap → Except Stop (Address × Heap) :=
  library.allocCrashlog reported

def crashlogReadFromAcpiSysfs (reported : Except Error CrashLog) : Heap → Except Stop (Address × Heap) :=
  library.allocCrashlog reported

def crashlogReadFromPmtSysfs (reported : Except Error CrashLog) : Heap → Except Stop (Address × Heap) :=
  library.allocCrashlog reported

def crashlogReadFromWindowsEventLogs (reported : Except Error (List CrashLog)) (heap : Heap) :
    Except Stop (Address × Heap) :=
  match reported with
  | .ok crashlogs => library.alloc (.crashlogs { crashlogs }) heap
  | .error _ => .ok (0, heap)

def crashlogNext (crashlogs : Address) (heap : Heap) : Except Stop (Address × Heap) :=
  if crashlogs = 0 then .ok (0, heap)
  else do
    let content ← heap.deref .crashlogs crashlogs
    match content.crashlogs with
    | first :: rest => library.alloc (.crashlog first) (heap.insert crashlogs (.crashlogs { crashlogs := rest }))
    | [] =>
        let heap ← free .crashlogs crashlogs heap
        .ok (0, heap)

/-- The root of a tree that was allocated. -/
def rootRef (allocated : Address × Heap) : Option NodeRef × Heap :=
  (some { tree := allocated.1, path := [] }, allocated.2)

def crashlogDecode [UnicodeTables] (context crashlog : Address) (heap : Heap) :
    Except Stop (Option NodeRef × Heap) :=
  if crashlog = 0 ∨ context = 0 then .ok (none, heap)
  else do
    let content ← heap.deref .context context
    let crashlog ← heap.deref .crashlog crashlog
    match content.collateralManager with
    | some cm =>
        match crashlog.decode cm with
        | some (root, cm) =>
            (library.alloc (.nodes root) (heap.insert context (.context { collateralManager := some cm }))).map rootRef
        | none => .error .undecoded
    | none =>
        match crashlog.decodeWithoutCm with
        | some root => (library.alloc (.nodes root) heap).map rootRef
        | none => .error .endless

def crashlogExportToCper (crashlog : Address) (heap : Heap) : Except Stop (Address × Heap) :=
  if crashlog = 0 then .ok (0, heap)
  else do
    let crashlog ← heap.deref .crashlog crashlog
    library.alloc (.exported { data := crashlog.toBytes }) heap

def crashlogExportToJson (node : Option NodeRef) (heap : Heap) : Except Stop (Address × Heap) :=
  match node with
  | none => .ok (0, heap)
  | some ref => do
      let node ← heap.node ref
      match library.jsonToString node.serialize with
      | some json => library.alloc (.exported { data := json }) heap
      | none => .ok (0, heap)

def crashlogReadExport (pointer : Address) (buffer : Buffer) (heap : Heap) :
    Except Stop ((Nat × List Byte) × Heap) :=
  if pointer = 0 then .ok ((0, buffer.memory), heap)
  else do
    let content ← heap.deref .exported pointer
    match Crashlog.crashlogReadExport (some content) buffer with
    | .error panic => .error (.panic panic)
    | .ok (count, content, memory) =>
        .ok ((count, memory), heap.insert pointer (.exported (content.getD { data := [] })))

def crashlogGetNodeName (node : Option NodeRef) (buffer : Buffer) (heap : Heap) : Except Stop (Nat × List Byte) :=
  match node with
  | none => .ok (0, buffer.memory)
  | some ref => do
      let node ← heap.node ref
      match Crashlog.crashlogGetNodeName library.build (some node) buffer with
      | .error panic => .error (.panic panic)
      | .ok written => .ok written

/-- The value behind the pointer of the caller, which may be null. -/
def crashlogGetNodeValue (node : Option NodeRef) (value : Option UInt64) (heap : Heap) :
    Except Stop (Bool × Option UInt64) :=
  match node, value with
  | some ref, some dst => do
      let node ← heap.node ref
      match node.kind with
      | .field value => .ok (true, some value)
      | _ => .ok (false, some dst)
  | _, _ => .ok (false, value)

def crashlogGetNodeChildren (node : Option NodeRef) (heap : Heap) : Except Stop (Address × Heap) :=
  match node with
  | none => .ok (0, heap)
  | some ref => do
      let node ← heap.node ref
      library.alloc (.children { node := ref, children := node.children.map Prod.fst }) heap

/-- An iterator at its end does not touch the tree. -/
def crashlogGetNextNodeChild (children : Address) (heap : Heap) : Except Stop (Option NodeRef × Heap) :=
  if children = 0 then .ok (none, heap)
  else do
    let content ← heap.deref .children children
    match content.children with
    | name :: rest =>
        let ref : NodeRef := { content.node with path := content.node.path ++ [name] }
        let _ ← heap.node ref
        .ok (some ref, heap.insert children (.children { content with children := rest }))
    | [] =>
        let heap ← free .children children heap
        .ok (none, heap)

/-- Only the node is checked for null, not the path. -/
def crashlogGetNodeByPath (node : Option NodeRef) (path : Option String) (heap : Heap) :
    Except Stop (Option NodeRef) :=
  match node with
  | none => .ok none
  | some ref => do
      let node ← heap.node ref
      match path with
      | none => .error .undefined
      | some path =>
          match node.getByPath path with
          | some _ => .ok (some { ref with path := ref.path ++ Text.split '.' path })
          | none => .ok none

def crashlogRelease : Address → Heap → Except Stop Heap := free .crashlog

/-- The root of a tree is expected; no other node is an allocation. -/
def crashlogReleaseNodes (node : Option NodeRef) (heap : Heap) : Except Stop Heap :=
  match node with
  | none => .ok heap
  | some ref => if ref.path = [] then dropBox .nodes ref.tree heap else .error .undefined

def crashlogReleaseExport : Address → Heap → Except Stop Heap := free .exported

def crashlogDeinit : Address → Heap → Except Stop Heap := free .context

end Library

/-! ## Calls -/

/-- The context is an argument only where it is used. -/
inductive Call where
  | init
  | readFromBuffer (data : List Byte)
  | readFromSystemTable (reported : Except Error CrashLog)
  | readFromAcpiSysfs (reported : Except Error CrashLog)
  | readFromPmtSysfs (reported : Except Error CrashLog)
  | readFromWindowsEventLogs (reported : Except Error (List CrashLog))
  | next (crashlogs : Address)
  | decode (context crashlog : Address)
  | exportToCper (crashlog : Address)
  | exportToJson (node : Option NodeRef)
  | readExport (pointer : Address) (buffer : Buffer)
  | getNodeName (node : Option NodeRef) (buffer : Buffer)
  | getNodeValue (node : Option NodeRef) (value : Option UInt64)
  | getNodeChildren (node : Option NodeRef)
  | getNextNodeChild (children : Address)
  | getNodeByPath (node : Option NodeRef) (path : Option String)
  | release (crashlog : Address)
  | releaseNodes (node : Option NodeRef)
  | releaseExport (pointer : Address)
  | deinit (context : Address)

inductive Response where
  | pointer (address : Address)
  | node (node : Option NodeRef)
  | written (count : Nat) (memory : List Byte)
  | value (stored : Bool) (value : Option UInt64)
  | unit

namespace Library

variable [UnicodeTables] (library : Library)

def call (call : Call) (heap : Heap) : Except Stop (Response × Heap) :=
  let pointer := fun (address, heap) => (Response.pointer address, heap)
  let node := fun (node, heap) => (Response.node node, heap)
  let released := fun heap => (Response.unit, heap)
  match call with
  | .init => (library.crashlogInit heap).map pointer
  | .readFromBuffer data => (library.crashlogReadFromBuffer data heap).map pointer
  | .readFromSystemTable reported => (library.crashlogReadFromSystemTable reported heap).map pointer
  | .readFromAcpiSysfs reported => (library.crashlogReadFromAcpiSysfs reported heap).map pointer
  | .readFromPmtSysfs reported => (library.crashlogReadFromPmtSysfs reported heap).map pointer
  | .readFromWindowsEventLogs reported => (library.crashlogReadFromWindowsEventLogs reported heap).map pointer
  | .next crashlogs => (library.crashlogNext crashlogs heap).map pointer
  | .decode context crashlog => (library.crashlogDecode context crashlog heap).map node
  | .exportToCper crashlog => (library.crashlogExportToCper crashlog heap).map pointer
  | .exportToJson ref => (library.crashlogExportToJson ref heap).map pointer
  | .readExport address buffer =>
      (crashlogReadExport address buffer heap).map fun ((count, memory), heap) => (.written count memory, heap)
  | .getNodeName ref buffer =>
      (library.crashlogGetNodeName ref buffer heap).map fun (count, memory) => (.written count memory, heap)
  | .getNodeValue ref value =>
      (crashlogGetNodeValue ref value heap).map fun (stored, value) => (.value stored value, heap)
  | .getNodeChildren ref => (library.crashlogGetNodeChildren ref heap).map pointer
  | .getNextNodeChild children => (crashlogGetNextNodeChild children heap).map node
  | .getNodeByPath ref path => (crashlogGetNodeByPath ref path heap).map fun ref => (.node ref, heap)
  | .release crashlog => (crashlogRelease crashlog heap).map released
  | .releaseNodes ref => (crashlogReleaseNodes ref heap).map released
  | .releaseExport address => (crashlogReleaseExport address heap).map released
  | .deinit context => (crashlogDeinit context heap).map released

end Library

/-! ## What a call does -/

/-- The objects that a call makes. -/
inductive Makes (library : Library) (heap : Heap) : Call → Object → Prop
  | init {manager : Option CollateralManager} (embedded : library.embeddedTree = manager.map .ok) :
      Makes library heap .init (.context { collateralManager := manager })
  | buffer {data : List Byte} {crashlog : CrashLog} (read : CrashLog.fromSlice data = .ok crashlog) :
      Makes library heap (.readFromBuffer data) (.crashlog crashlog)
  | systemTable {reported : Except Error CrashLog} {crashlog : CrashLog} (read : reported = .ok crashlog) :
      Makes library heap (.readFromSystemTable reported) (.crashlog crashlog)
  | acpi {reported : Except Error CrashLog} {crashlog : CrashLog} (read : reported = .ok crashlog) :
      Makes library heap (.readFromAcpiSysfs reported) (.crashlog crashlog)
  | pmt {reported : Except Error CrashLog} {crashlog : CrashLog} (read : reported = .ok crashlog) :
      Makes library heap (.readFromPmtSysfs reported) (.crashlog crashlog)
  | eventLogs (crashlogs : List CrashLog) :
      Makes library heap (.readFromWindowsEventLogs (.ok crashlogs)) (.crashlogs { crashlogs })
  | cper {pointer : Address} {crashlog : CrashLog} (stored : heap.lookup pointer = some (.crashlog crashlog)) :
      Makes library heap (.exportToCper pointer) (.exported { data := crashlog.toBytes })
  | json (ref : NodeRef) (data : List Byte) : Makes library heap (.exportToJson (some ref)) (.exported { data })
  | children {ref : NodeRef} {node : Node} (found : heap.node ref = .ok node) :
      Makes library heap (.getNodeChildren (some ref))
        (.children { node := ref, children := node.children.map Prod.fst })

/-- The calls that return a pointer, null when they fail. -/
def Call.Maker : Call → Prop
  | .init | .readFromBuffer _ | .readFromSystemTable _ | .readFromAcpiSysfs _ | .readFromPmtSysfs _
  | .readFromWindowsEventLogs _ | .exportToCper _ | .exportToJson _ | .getNodeChildren _ => True
  | _ => False

/-- Calls that only look at the heap, or not even that. -/
inductive Idle : Call → Response → Prop
  | made {call : Call} (maker : call.Maker) : Idle call (.pointer 0)
  | next : Idle (.next 0) (.pointer 0)
  | decode (context crashlog : Address) : Idle (.decode context crashlog) (.node none)
  | read (buffer : Buffer) : Idle (.readExport 0 buffer) (.written 0 buffer.memory)
  | name (node : Option NodeRef) (buffer : Buffer) (count : Nat) (memory : List Byte) :
      Idle (.getNodeName node buffer) (.written count memory)
  | value (node : Option NodeRef) (value after : Option UInt64) (stored : Bool) :
      Idle (.getNodeValue node value) (.value stored after)
  | child : Idle (.getNextNodeChild 0) (.node none)
  | path (node : Option NodeRef) (path : Option String) : Idle (.getNodeByPath node path) (.node none)
  | release {pointer : Address} (null : pointer = 0) : Idle (.release pointer) .unit
  | releaseNodes : Idle (.releaseNodes none) .unit
  | releaseExport {pointer : Address} (null : pointer = 0) : Idle (.releaseExport pointer) .unit
  | deinit {pointer : Address} (null : pointer = 0) : Idle (.deinit pointer) .unit

/-- The objects that a caller releases. -/
inductive Releases (heap : Heap) : Call → Address → Prop
  | crashlog {pointer : Address} {content : CrashLog} (stored : heap.lookup pointer = some (.crashlog content)) :
      Releases heap (.release pointer) pointer
  | exported {pointer : Address} {content : CrashLogExport}
      (stored : heap.lookup pointer = some (.exported content)) : Releases heap (.releaseExport pointer) pointer
  | context {pointer : Address} {content : CrashLogContext}
      (stored : heap.lookup pointer = some (.context content)) : Releases heap (.deinit pointer) pointer

/-- Everything that a call which returns can do. -/
inductive Does [UnicodeTables] (library : Library) (heap : Heap) : Call → Response → Heap → Prop
  | idle {call : Call} {response : Response} (idle : Idle call response) : Does library heap call response heap
  | made {call : Call} {object : Object} {address : Address} (makes : Makes library heap call object)
      (fresh : address ≠ 0 ∧ heap.lookup address = none) :
      Does library heap call (.pointer address) (heap.insert address object)
  | took {crashlogs address : Address} {first : CrashLog} {rest : List CrashLog}
      (stored : heap.lookup crashlogs = some (.crashlogs { crashlogs := first :: rest }))
      (fresh : address ≠ 0 ∧ heap.lookup address = none) :
      Does library heap (.next crashlogs) (.pointer address)
        ((heap.insert crashlogs (.crashlogs { crashlogs := rest })).insert address (.crashlog first))
  | tookAll {crashlogs : Address} (stored : heap.lookup crashlogs = some (.crashlogs { crashlogs := [] })) :
      Does library heap (.next crashlogs) (.pointer 0) (heap.erase crashlogs)
  | decoded {context pointer address : Address} {crashlog : CrashLog} {cm after : CollateralManager} {root : Node}
      (stored : heap.lookup context = some (.context { collateralManager := some cm }))
      (read : heap.lookup pointer = some (.crashlog crashlog)) (decodes : crashlog.decode cm = some (root, after))
      (fresh : address ≠ 0 ∧ heap.lookup address = none) :
      Does library heap (.decode context pointer) (.node (some { tree := address, path := [] }))
        ((heap.insert context (.context { collateralManager := some after })).insert address (.nodes root))
  | decodedWithoutCm {context pointer address : Address} {crashlog : CrashLog} {root : Node}
      (stored : heap.lookup context = some (.context { collateralManager := none }))
      (read : heap.lookup pointer = some (.crashlog crashlog)) (decodes : crashlog.decodeWithoutCm = some root)
      (fresh : address ≠ 0 ∧ heap.lookup address = none) :
      Does library heap (.decode context pointer) (.node (some { tree := address, path := [] }))
        (heap.insert address (.nodes root))
  | read {pointer : Address} {data : List Byte} {buffer : Buffer}
      (stored : heap.lookup pointer = some (.exported { data })) :
      Does library heap (.readExport pointer buffer)
        (.written (data.take buffer.size).length
          (data.take buffer.size ++ buffer.memory.drop (data.take buffer.size).length))
        (heap.insert pointer (.exported { data := data.drop buffer.size }))
  | child {pointer : Address} {ref : NodeRef} {name : String} {rest : List String} {node : Node}
      (stored : heap.lookup pointer = some (.children { node := ref, children := name :: rest }))
      (found : heap.node { ref with path := ref.path ++ [name] } = .ok node) :
      Does library heap (.getNextNodeChild pointer) (.node (some { ref with path := ref.path ++ [name] }))
        (heap.insert pointer (.children { node := ref, children := rest }))
  | childrenEnd {pointer : Address} {ref : NodeRef}
      (stored : heap.lookup pointer = some (.children { node := ref, children := [] })) :
      Does library heap (.getNextNodeChild pointer) (.node none) (heap.erase pointer)
  | found {ref : NodeRef} {path : String} {node : Node}
      (found : heap.node { ref with path := ref.path ++ Text.split '.' path } = .ok node) :
      Does library heap (.getNodeByPath (some ref) (some path))
        (.node (some { ref with path := ref.path ++ Text.split '.' path })) heap
  | released {call : Call} {address : Address} (releases : Releases heap call address) :
      Does library heap call .unit (heap.erase address)
  | releasedNodes {tree : Address} {root : Node} (stored : heap.lookup tree = some (.nodes root)) :
      Does library heap (.releaseNodes (some { tree, path := [] })) .unit (heap.erase tree)

section Inversion

variable {heap after : Heap} {pointer : Address} {ref : NodeRef} {α β : Type}

theorem Except.bind_eq_ok {first : Except Stop α} {next : α → Except Stop β} {result : β}
    (ran : first >>= next = .ok result) : ∃ value, first = .ok value ∧ next value = .ok result := by
  cases first with
  | error stop => cases ran
  | ok value => exact ⟨value, rfl, ran⟩

theorem Except.map_eq_ok {first : Except Stop α} {f : α → β} {result : β} (ran : first.map f = .ok result) :
    ∃ value, first = .ok value ∧ f value = result := by
  cases first with
  | error stop => cases ran
  | ok value => exact ⟨value, rfl, Except.ok.inj ran⟩

theorem Heap.deref_eq_ok_iff {type : Content α} {content : α} :
    heap.deref type pointer = .ok content ↔ heap.lookup pointer = some (type.wrap content) := by
  have selected : (heap.lookup pointer).bind type.select = some content ↔
      heap.lookup pointer = some (type.wrap content) := by
    rw [Option.bind_eq_some_iff]
    constructor
    · rintro ⟨object, held, content⟩
      rw [held, (type.select_eq_some_iff _ _).mp content]
    · intro held
      exact ⟨_, held, (type.select_eq_some_iff _ _).mpr rfl⟩
  rw [← selected, Heap.deref]
  cases (heap.lookup pointer).bind type.select with
  | none => simp
  | some other => simp

theorem Heap.node_eq_ok_iff {node : Node} :
    heap.node ref = .ok node ↔
      ∃ root, heap.lookup ref.tree = some (.nodes root) ∧ root.walk ref.path = some node := by
  constructor
  · intro found
    obtain ⟨root, held, walked⟩ := Except.bind_eq_ok found
    refine ⟨root, Heap.deref_eq_ok_iff.mp held, ?_⟩
    cases inside : root.walk ref.path with
    | none =>
        rw [inside] at walked
        cases walked
    | some child =>
        rw [inside] at walked
        exact congrArg some (Except.ok.inj walked)
  · rintro ⟨root, held, walked⟩
    rw [Heap.node, Heap.deref_eq_ok_iff.mpr held]
    change (match root.walk ref.path with
      | some node => Except.ok node
      | none => Except.error Stop.undefined) = Except.ok node
    rw [walked]

theorem alloc_eq_ok {library : Library} {object : Object} {address : Address}
    (allocated : library.alloc object heap = .ok (address, after)) :
    (address ≠ 0 ∧ heap.lookup address = none) ∧ after = heap.insert address object := by
  unfold Library.alloc at allocated
  cases placed : library.allocator heap with
  | none =>
      rw [placed] at allocated
      cases allocated
  | some place =>
      rw [placed] at allocated
      cases allocated
      exact ⟨library.fresh heap _ placed, rfl⟩

theorem drop_box_eq_ok {type : Content α} (dropped : Library.dropBox type pointer heap = .ok after) :
    ∃ content, heap.lookup pointer = some (type.wrap content) ∧ after = heap.erase pointer := by
  obtain ⟨content, held, same⟩ := Except.bind_eq_ok dropped
  cases same
  exact ⟨content, Heap.deref_eq_ok_iff.mp held, rfl⟩

theorem free_eq_ok {type : Content α} (freed : Library.free type pointer heap = .ok after) :
    (pointer = 0 ∧ after = heap) ∨
      ∃ content, heap.lookup pointer = some (type.wrap content) ∧ after = heap.erase pointer := by
  unfold Library.free at freed
  split_ifs at freed with null
  · cases freed
    exact .inl ⟨null, rfl⟩
  · exact .inr (drop_box_eq_ok freed)

/-! Each function. -/

section Functions

variable [UnicodeTables] {library : Library} {address : Address} {node : Option NodeRef}

theorem alloc_does {call : Call} {object : Object} (makes : Makes library heap call object)
    (allocated : library.alloc object heap = .ok (address, after)) :
    Does library heap call (.pointer address) after := by
  obtain ⟨fresh, rfl⟩ := alloc_eq_ok allocated
  exact .made makes fresh

theorem init_does (ran : library.crashlogInit heap = .ok (address, after)) :
    Does library heap .init (.pointer address) after := by
  unfold Library.crashlogInit at ran
  split at ran
  · rename_i absent
    have makes : Makes library heap .init (.context { collateralManager := none }) := .init absent
    exact alloc_does makes ran
  · rename_i cm embedded
    have makes : Makes library heap .init (.context { collateralManager := some cm }) := .init embedded
    exact alloc_does makes ran
  · cases ran
    exact .idle (.made trivial)

/-- A call that reads a Crash Log makes what it read. -/
theorem alloc_crashlog_does {call : Call} {result : Except Error CrashLog} (maker : call.Maker)
    (makes : ∀ crashlog, result = .ok crashlog → Makes library heap call (.crashlog crashlog))
    (ran : library.allocCrashlog result heap = .ok (address, after)) :
    Does library heap call (.pointer address) after := by
  unfold Library.allocCrashlog at ran
  split at ran
  · exact alloc_does (makes _ rfl) ran
  · cases ran
    exact .idle (.made maker)

theorem event_logs_does {reported : Except Error (List CrashLog)}
    (ran : library.crashlogReadFromWindowsEventLogs reported heap = .ok (address, after)) :
    Does library heap (.readFromWindowsEventLogs reported) (.pointer address) after := by
  unfold Library.crashlogReadFromWindowsEventLogs at ran
  split at ran
  · exact alloc_does (.eventLogs _) ran
  · cases ran
    exact .idle (.made trivial)

omit [UnicodeTables] in
/-- Writing to an object does not make room elsewhere. -/
theorem fresh_of_insert {object : Object} (held : (heap.lookup pointer).isSome)
    (fresh : address ≠ 0 ∧ AList.lookup address (heap.insert pointer object) = none) :
    address ≠ 0 ∧ heap.lookup address = none := by
  refine ⟨fresh.1, ?_⟩
  rw [← fresh.2, AList.lookup_insert_ne]
  rintro rfl
  rw [AList.lookup_insert] at fresh
  cases fresh.2

theorem next_does (ran : library.crashlogNext pointer heap = .ok (address, after)) :
    Does library heap (.next pointer) (.pointer address) after := by
  unfold Library.crashlogNext at ran
  split_ifs at ran with null
  · cases ran
    subst null
    exact .idle .next
  · obtain ⟨⟨crashlogs⟩, held, step⟩ := Except.bind_eq_ok ran
    have stored := Heap.deref_eq_ok_iff.mp held
    cases crashlogs with
    | nil =>
        obtain ⟨freed, released, same⟩ := Except.bind_eq_ok step
        cases same
        rcases free_eq_ok released with ⟨null', _⟩ | ⟨_, _, rfl⟩
        · exact absurd null' null
        · exact .tookAll stored
    | cons first rest =>
        obtain ⟨fresh, rfl⟩ := alloc_eq_ok step
        exact .took stored (fresh_of_insert (by rw [stored]; rfl) fresh)

theorem decode_does {context : Address}
    (ran : library.crashlogDecode context pointer heap = .ok (node, after)) :
    Does library heap (.decode context pointer) (.node node) after := by
  unfold Library.crashlogDecode at ran
  split_ifs at ran with null
  · cases ran
    exact .idle (.decode _ _)
  · obtain ⟨⟨manager⟩, held, step⟩ := Except.bind_eq_ok ran
    obtain ⟨crashlog, read, decodes⟩ := Except.bind_eq_ok step
    have stored := Heap.deref_eq_ok_iff.mp held
    have log := Heap.deref_eq_ok_iff.mp read
    cases manager with
    | none =>
        cases decoded : crashlog.decodeWithoutCm with
        | none =>
            simp only [decoded] at decodes
            cases decodes
        | some root =>
            simp only [decoded] at decodes
            obtain ⟨⟨place, final⟩, allocated, same⟩ := Except.map_eq_ok decodes
            obtain ⟨fresh, rfl⟩ := alloc_eq_ok allocated
            cases same
            exact .decodedWithoutCm stored log decoded fresh
    | some cm =>
        cases decoded : crashlog.decode cm with
        | none =>
            simp only [decoded] at decodes
            cases decodes
        | some ran =>
            simp only [decoded] at decodes
            obtain ⟨⟨place, final⟩, allocated, same⟩ := Except.map_eq_ok decodes
            obtain ⟨fresh, rfl⟩ := alloc_eq_ok allocated
            cases same
            exact .decoded stored log decoded (fresh_of_insert (by rw [stored]; rfl) fresh)

theorem export_to_cper_does (ran : library.crashlogExportToCper pointer heap = .ok (address, after)) :
    Does library heap (.exportToCper pointer) (.pointer address) after := by
  unfold Library.crashlogExportToCper at ran
  split_ifs at ran with null
  · cases ran
    exact .idle (.made trivial)
  · obtain ⟨crashlog, held, allocated⟩ := Except.bind_eq_ok ran
    exact alloc_does (.cper (Heap.deref_eq_ok_iff.mp held)) allocated

theorem export_to_json_does (ran : library.crashlogExportToJson node heap = .ok (address, after)) :
    Does library heap (.exportToJson node) (.pointer address) after := by
  cases node with
  | none =>
      cases ran
      exact .idle (.made trivial)
  | some ref =>
      obtain ⟨found, held, step⟩ := Except.bind_eq_ok ran
      split at step
      · exact alloc_does (.json ref _) step
      · cases step
        exact .idle (.made trivial)

theorem read_export_does {buffer : Buffer} {count : Nat} {memory : List Byte}
    (ran : Library.crashlogReadExport pointer buffer heap = .ok ((count, memory), after)) :
    Does library heap (.readExport pointer buffer) (.written count memory) after := by
  unfold Library.crashlogReadExport at ran
  split_ifs at ran with null
  · cases ran
    subst null
    exact .idle (.read buffer)
  · obtain ⟨⟨data⟩, held, step⟩ := Except.bind_eq_ok ran
    rw [read_export_eq { data } buffer] at step
    cases step
    exact .read (Heap.deref_eq_ok_iff.mp held)

theorem get_node_children_does (ran : library.crashlogGetNodeChildren node heap = .ok (address, after)) :
    Does library heap (.getNodeChildren node) (.pointer address) after := by
  cases node with
  | none =>
      cases ran
      exact .idle (.made trivial)
  | some ref =>
      obtain ⟨found, held, allocated⟩ := Except.bind_eq_ok ran
      exact alloc_does (.children held) allocated

theorem get_next_node_child_does (ran : Library.crashlogGetNextNodeChild pointer heap = .ok (node, after)) :
    Does library heap (.getNextNodeChild pointer) (.node node) after := by
  unfold Library.crashlogGetNextNodeChild at ran
  split_ifs at ran with null
  · cases ran
    subst null
    exact .idle .child
  · obtain ⟨⟨ref, children⟩, held, step⟩ := Except.bind_eq_ok ran
    have stored := Heap.deref_eq_ok_iff.mp held
    cases children with
    | nil =>
        obtain ⟨freed, released, same⟩ := Except.bind_eq_ok step
        cases same
        rcases free_eq_ok released with ⟨null', _⟩ | ⟨_, _, rfl⟩
        · exact absurd null' null
        · exact .childrenEnd stored
    | cons name rest =>
        obtain ⟨child, found, same⟩ := Except.bind_eq_ok step
        cases same
        exact .child stored found

theorem get_node_by_path_does {path : Option String} {found : Option NodeRef}
    (ran : Library.crashlogGetNodeByPath node path heap = .ok found) :
    Does library heap (.getNodeByPath node path) (.node found) heap := by
  cases node with
  | none =>
      cases ran
      exact .idle (.path _ _)
  | some ref =>
      obtain ⟨top, held, step⟩ := Except.bind_eq_ok ran
      cases path with
      | none => cases step
      | some path =>
          cases inside : top.getByPath path with
          | none =>
              simp only [inside] at step
              cases step
              exact .idle (.path _ _)
          | some child =>
              simp only [inside] at step
              cases step
              obtain ⟨root, stored, walked⟩ := Heap.node_eq_ok_iff.mp held
              have walkedOn : root.walk (ref.path ++ Text.split '.' path) = some child := by
                rw [Node.walk_append, walked]
                exact inside
              exact .found (Heap.node_eq_ok_iff.mpr ⟨root, stored, walkedOn⟩)

theorem release_nodes_does (ran : Library.crashlogReleaseNodes node heap = .ok after) :
    Does library heap (.releaseNodes node) .unit after := by
  cases node with
  | none =>
      cases ran
      exact .idle .releaseNodes
  | some ref =>
      obtain ⟨tree, path⟩ := ref
      rw [Library.crashlogReleaseNodes] at ran
      split_ifs at ran with top
      subst top
      obtain ⟨root, held, rfl⟩ := drop_box_eq_ok ran
      exact .releasedNodes held

/-- A call that releases an object of one type. -/
theorem free_does {type : Content α} {call : Call} (idle : pointer = 0 → Idle call .unit)
    (releases : ∀ content, heap.lookup pointer = some (type.wrap content) → Releases heap call pointer)
    (freed : Library.free type pointer heap = .ok after) : Does library heap call .unit after := by
  rcases free_eq_ok freed with ⟨null, rfl⟩ | ⟨content, held, rfl⟩
  · exact .idle (idle null)
  · exact .released (releases content held)

/-- A call that returns does one of the things listed. -/
theorem call_does {call : Call} {response : Response} (ran : library.call call heap = .ok (response, after)) :
    Does library heap call response after := by
  cases call with
  | init =>
      obtain ⟨⟨address, final⟩, inner, same⟩ := Except.map_eq_ok ran
      cases same
      exact init_does inner
  | readFromBuffer data =>
      obtain ⟨⟨address, final⟩, inner, same⟩ := Except.map_eq_ok ran
      cases same
      exact alloc_crashlog_does trivial (fun _ read => .buffer read) inner
  | readFromSystemTable reported =>
      obtain ⟨⟨address, final⟩, inner, same⟩ := Except.map_eq_ok ran
      cases same
      exact alloc_crashlog_does trivial (fun _ read => .systemTable read) inner
  | readFromAcpiSysfs reported =>
      obtain ⟨⟨address, final⟩, inner, same⟩ := Except.map_eq_ok ran
      cases same
      exact alloc_crashlog_does trivial (fun _ read => .acpi read) inner
  | readFromPmtSysfs reported =>
      obtain ⟨⟨address, final⟩, inner, same⟩ := Except.map_eq_ok ran
      cases same
      exact alloc_crashlog_does trivial (fun _ read => .pmt read) inner
  | readFromWindowsEventLogs reported =>
      obtain ⟨⟨address, final⟩, inner, same⟩ := Except.map_eq_ok ran
      cases same
      exact event_logs_does inner
  | next crashlogs =>
      obtain ⟨⟨address, final⟩, inner, same⟩ := Except.map_eq_ok ran
      cases same
      exact next_does inner
  | decode context crashlog =>
      obtain ⟨⟨node, final⟩, inner, same⟩ := Except.map_eq_ok ran
      cases same
      exact decode_does inner
  | exportToCper crashlog =>
      obtain ⟨⟨address, final⟩, inner, same⟩ := Except.map_eq_ok ran
      cases same
      exact export_to_cper_does inner
  | exportToJson node =>
      obtain ⟨⟨address, final⟩, inner, same⟩ := Except.map_eq_ok ran
      cases same
      exact export_to_json_does inner
  | readExport address buffer =>
      obtain ⟨⟨⟨count, memory⟩, final⟩, inner, same⟩ := Except.map_eq_ok ran
      cases same
      exact read_export_does inner
  | getNodeName node buffer =>
      obtain ⟨⟨count, memory⟩, _, same⟩ := Except.map_eq_ok ran
      cases same
      exact .idle (.name _ _ _ _)
  | getNodeValue node value =>
      obtain ⟨⟨stored, last⟩, _, same⟩ := Except.map_eq_ok ran
      cases same
      exact .idle (.value _ _ _ _)
  | getNodeChildren node =>
      obtain ⟨⟨address, final⟩, inner, same⟩ := Except.map_eq_ok ran
      cases same
      exact get_node_children_does inner
  | getNextNodeChild children =>
      obtain ⟨⟨node, final⟩, inner, same⟩ := Except.map_eq_ok ran
      cases same
      exact get_next_node_child_does inner
  | getNodeByPath node path =>
      obtain ⟨found, inner, same⟩ := Except.map_eq_ok ran
      cases same
      exact get_node_by_path_does inner
  | release crashlog =>
      obtain ⟨final, inner, same⟩ := Except.map_eq_ok ran
      cases same
      exact free_does (fun null => .release null) (fun _ stored => .crashlog stored) inner
  | releaseNodes node =>
      obtain ⟨final, inner, same⟩ := Except.map_eq_ok ran
      cases same
      exact release_nodes_does inner
  | releaseExport address =>
      obtain ⟨final, inner, same⟩ := Except.map_eq_ok ran
      cases same
      exact free_does (fun null => .releaseExport null) (fun _ stored => .exported stored) inner
  | deinit context =>
      obtain ⟨final, inner, same⟩ := Except.map_eq_ok ran
      cases same
      exact free_does (fun null => .deinit null) (fun _ stored => .context stored) inner

end Functions

end Inversion

end Crashlog.Ffi
