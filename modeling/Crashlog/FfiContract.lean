import Crashlog.DecodeHeaders
import Crashlog.FfiHeap

/-!
# The contract of the C interface

The documentation says where a pointer has to come from and when it must not be
used again. A caller that keeps book of that, going by the pointers it was given
alone, knows exactly what is allocated, and its calls never touch memory that
is not.
-/

namespace Crashlog.Ffi

open Bytes

/-! ## What a caller knows -/

/-- An iterator is stranded when its tree was released. -/
inductive Kind where
  | context
  | crashlogs
  | crashlog
  | nodes
  | exported
  | children (node : NodeRef)
  | stranded
  deriving DecidableEq, Repr

namespace Kind

/-- What an iterator is when a tree is released. -/
def strand (tree : Address) : Kind → Kind
  | .children node => if node.tree = tree then .stranded else .children node
  | kind => kind

end Kind

structure Ledger where
  handles : Address → Option Kind
  nodes : NodeRef → Prop

namespace Ledger

def start : Ledger where
  handles := fun _ => none
  nodes := fun _ => False

def put (ledger : Ledger) (pointer : Address) (kind : Kind) : Ledger :=
  { ledger with handles := Function.update ledger.handles pointer (some kind) }

def hold (ledger : Ledger) (pointer : Address) (kind : Kind) : Ledger :=
  if pointer = 0 then ledger else ledger.put pointer kind

def drop (ledger : Ledger) (pointer : Address) : Ledger :=
  { ledger with handles := Function.update ledger.handles pointer none }

def obtain (ledger : Ledger) (ref : NodeRef) : Ledger :=
  { ledger with nodes := fun other => other = ref ∨ ledger.nodes other }

def dropTree (ledger : Ledger) (tree : Address) : Ledger where
  handles := Function.update (fun address => (ledger.handles address).map (Kind.strand tree)) tree none
  nodes := fun ref => ref.tree ≠ tree ∧ ledger.nodes ref

section Handles

variable (ledger : Ledger) {pointer other : Address} (kind : Kind)

theorem handles_put : (ledger.put pointer kind).handles pointer = some kind := Function.update_self _ _ _

theorem handles_put_ne (apart : other ≠ pointer) : (ledger.put pointer kind).handles other = ledger.handles other :=
  Function.update_of_ne apart _ _

theorem put_eq_self {ledger : Ledger} {kind : Kind} (held : ledger.handles pointer = some kind) :
    ledger.put pointer kind = ledger := by
  rw [put, ← held, Function.update_eq_self]

theorem handles_drop : (ledger.drop pointer).handles pointer = none := Function.update_self _ _ _

theorem handles_drop_ne (apart : other ≠ pointer) : (ledger.drop pointer).handles other = ledger.handles other :=
  Function.update_of_ne apart _ _

theorem drop_eq_self {ledger : Ledger} (free : ledger.handles pointer = none) : ledger.drop pointer = ledger := by
  rw [drop, ← free, Function.update_eq_self]

theorem handles_drop_tree : (ledger.dropTree pointer).handles pointer = none := by
  simp only [dropTree, Function.update_self]

theorem handles_drop_tree_ne (apart : other ≠ pointer) :
    (ledger.dropTree pointer).handles other = (ledger.handles other).map (Kind.strand pointer) := by
  simp only [dropTree, Function.update_of_ne apart]

end Handles

/-- A node pointer is null or was obtained from a tree that was not released. -/
def Node? (ledger : Ledger) (node : Option NodeRef) : Prop := ∀ ref, node = some ref → ledger.nodes ref

/-- A pointer is null or one that is held. -/
def Held (ledger : Ledger) (pointer : Address) (kind : Kind) : Prop :=
  pointer = 0 ∨ ledger.handles pointer = some kind

def Allows (ledger : Ledger) : Call → Prop
  | .init | .readFromBuffer _ | .readFromSystemTable _ | .readFromAcpiSysfs _ | .readFromPmtSysfs _
  | .readFromWindowsEventLogs _ => True
  | .next crashlogs => ledger.Held crashlogs .crashlogs
  | .decode context crashlog => ledger.Held context .context ∧ ledger.Held crashlog .crashlog
  | .exportToCper crashlog => ledger.Held crashlog .crashlog
  | .exportToJson node | .getNodeName node _ | .getNodeValue node _ | .getNodeChildren node => ledger.Node? node
  | .getNodeByPath node path => ledger.Node? node ∧ path.isSome
  | .readExport pointer _ => ledger.Held pointer .exported
  | .getNextNodeChild children => children = 0 ∨ ∃ node, ledger.handles children = some (.children node)
  | .release crashlog => ledger.Held crashlog .crashlog
  | .releaseNodes node => ∀ ref, node = some ref → ref.path = [] ∧ ledger.handles ref.tree = some .nodes
  | .releaseExport pointer => ledger.Held pointer .exported
  | .deinit context => ledger.Held context .context

/-- A null pointer is the end of an iterator. -/
def learn (ledger : Ledger) : Call → Response → Ledger
  | .init, .pointer address => ledger.hold address .context
  | .readFromBuffer _, .pointer address | .readFromSystemTable _, .pointer address
  | .readFromAcpiSysfs _, .pointer address | .readFromPmtSysfs _, .pointer address =>
      ledger.hold address .crashlog
  | .readFromWindowsEventLogs _, .pointer address => ledger.hold address .crashlogs
  | .next crashlogs, .pointer address =>
      if address = 0 then ledger.drop crashlogs else ledger.hold address .crashlog
  | .decode .., .node (some ref) => (ledger.hold ref.tree .nodes).obtain ref
  | .exportToCper _, .pointer address | .exportToJson _, .pointer address => ledger.hold address .exported
  | .getNodeChildren (some node), .pointer address => ledger.hold address (.children node)
  | .getNextNodeChild children, .node node =>
      match node with
      | some ref => ledger.obtain ref
      | none => ledger.drop children
  | .getNodeByPath .., .node (some ref) => ledger.obtain ref
  | .release crashlog, _ => ledger.drop crashlog
  | .releaseNodes (some ref), _ => ledger.dropTree ref.tree
  | .releaseExport pointer, _ => ledger.drop pointer
  | .deinit context, _ => ledger.drop context
  | _, _ => ledger

end Ledger

def Library.contract [UnicodeTables] (library : Library) : Contract Heap Call Response Stop Ledger where
  call := library.call
  start := .start
  allows := Ledger.Allows
  learn := Ledger.learn

/-! ## Agreement with the heap -/

/-- The object is what the caller takes it for. -/
inductive Fits (heap : Heap) : Kind → Object → Prop
  | context (content : CrashLogContext) : Fits heap .context (.context content)
  | crashlogs (content : CrashLogs) : Fits heap .crashlogs (.crashlogs content)
  | crashlog (content : CrashLog) : Fits heap .crashlog (.crashlog content)
  | nodes (root : Node) : Fits heap .nodes (.nodes root)
  | exported (content : CrashLogExport) : Fits heap .exported (.exported content)
  | children {node : NodeRef} {children : List String}
      (alive : ∀ name ∈ children, ∃ child, heap.node { node with path := node.path ++ [name] } = .ok child) :
      Fits heap (.children node) (.children { node, children })
  | stranded (content : CrashLogNodeChildren) : Fits heap .stranded (.children content)

structure Agrees (ledger : Ledger) (heap : Heap) : Prop where
  null : heap.lookup 0 = none
  /-- What the caller holds is allocated. -/
  held : ∀ address kind, ledger.handles address = some kind →
    ∃ object, heap.lookup address = some object ∧ Fits heap kind object
  /-- What is allocated is held by the caller. -/
  known : ∀ address object, heap.lookup address = some object → ∃ kind, ledger.handles address = some kind
  nodes : ∀ ref, ledger.nodes ref → ∃ node, heap.node ref = .ok node

theorem agrees_start : Agrees .start ∅ where
  null := rfl
  held _ _ held := by cases held
  known _ _ found := by cases found
  nodes _ obtained := obtained.elim

section Agreement

variable {ledger : Ledger} {heap other : Heap} {address : Address} {kind : Kind} {object : Object} {ref : NodeRef}
  {node : Node}

theorem node_congr (same : other.lookup ref.tree = heap.lookup ref.tree) : other.node ref = heap.node ref := by
  simp only [Heap.node, Heap.deref, same]

/-- Only trees count for the nodes: an object may come, or change to another
one, where there is no tree. -/
theorem node_of_insert (treeless : ∀ root, heap.lookup address ≠ some (.nodes root))
    (found : heap.node ref = .ok node) : Heap.node (heap.insert address object) ref = .ok node := by
  rw [← found]
  apply node_congr
  apply AList.lookup_insert_ne
  rintro rfl
  obtain ⟨root, held, _⟩ := Heap.node_eq_ok_iff.mp found
  exact treeless root held

theorem node_of_erase (apart : ref.tree ≠ address) (found : heap.node ref = .ok node) :
    Heap.node (heap.erase address) ref = .ok node := by
  rw [← found]
  exact node_congr (AList.lookup_erase_ne apart)

theorem Fits.mono (nodes : ∀ ref node, heap.node ref = .ok node → other.node ref = .ok node)
    (fits : Fits heap kind object) : Fits other kind object := by
  cases fits with
  | context content => exact .context content
  | crashlogs content => exact .crashlogs content
  | crashlog content => exact .crashlog content
  | nodes root => exact .nodes root
  | exported content => exact .exported content
  | children alive =>
      refine .children fun name member => ?_
      obtain ⟨child, found⟩ := alive name member
      exact ⟨child, nodes _ _ found⟩
  | stranded content => exact .stranded content

/-- An object that is allocated or written. -/
theorem Agrees.insert (agrees : Agrees ledger heap) (place : address ≠ 0)
    (treeless : ∀ root, heap.lookup address ≠ some (.nodes root))
    (fits : Fits (heap.insert address object) kind object) :
    Agrees (ledger.put address kind) (heap.insert address object) where
  null := by rw [AList.lookup_insert_ne place.symm, agrees.null]
  held other otherKind held := by
    by_cases same : other = address
    · subst same
      rw [ledger.handles_put] at held
      cases held
      exact ⟨object, AList.lookup_insert _, fits⟩
    · rw [ledger.handles_put_ne _ same] at held
      obtain ⟨old, found, oldFits⟩ := agrees.held other otherKind held
      exact ⟨old, by rw [AList.lookup_insert_ne same, found], oldFits.mono fun _ _ => node_of_insert treeless⟩
  known other old found := by
    by_cases same : other = address
    · subst same
      exact ⟨kind, ledger.handles_put kind⟩
    · rw [AList.lookup_insert_ne same] at found
      rw [ledger.handles_put_ne _ same]
      exact agrees.known other old found
  nodes ref obtained := by
    obtain ⟨node, found⟩ := agrees.nodes ref obtained
    exact ⟨node, node_of_insert treeless found⟩

theorem Agrees.hold (agrees : Agrees ledger heap) (fresh : address ≠ 0 ∧ heap.lookup address = none)
    (fits : Fits (heap.insert address object) kind object) :
    Agrees (ledger.hold address kind) (heap.insert address object) := by
  rw [Ledger.hold, if_neg fresh.1]
  exact agrees.insert fresh.1 (by simp [fresh.2]) fits

theorem Agrees.free_null (agrees : Agrees ledger heap) : ledger.handles 0 = none := by
  cases held : ledger.handles 0 with
  | none => rfl
  | some kind =>
      obtain ⟨_, found, _⟩ := agrees.held _ _ held
      rw [agrees.null] at found
      cases found

/-- A write that keeps what the caller takes the object for. -/
theorem Agrees.write (agrees : Agrees ledger heap) (held : ledger.handles address = some kind)
    (treeless : ∀ root, heap.lookup address ≠ some (.nodes root))
    (fits : Fits (heap.insert address object) kind object) : Agrees ledger (heap.insert address object) := by
  have place : address ≠ 0 := by
    rintro rfl
    rw [agrees.free_null] at held
    cases held
  have written := agrees.insert place treeless fits
  rwa [Ledger.put_eq_self held] at written

/-- An object that is released, whatever becomes of the others for the caller. -/
theorem Agrees.erase {later : Ledger} (agrees : Agrees ledger heap) (dropped : later.handles address = none)
    (others : ∀ other, other ≠ address → ∃ turned : Kind → Kind,
      later.handles other = (ledger.handles other).map turned ∧
      ∀ kind object, Fits heap kind object → Fits (heap.erase address) (turned kind) object)
    (nodes : ∀ ref, later.nodes ref → ∃ node, Heap.node (heap.erase address) ref = .ok node) :
    Agrees later (heap.erase address) where
  null := by
    by_cases same : 0 = address
    · subst same
      exact AList.lookup_erase _ _
    · rw [AList.lookup_erase_ne same, agrees.null]
  held other kind held := by
    by_cases same : other = address
    · subst same
      rw [dropped] at held
      cases held
    · obtain ⟨turned, becomes, kept⟩ := others other same
      rw [becomes] at held
      obtain ⟨before, heldBefore, rfl⟩ := Option.map_eq_some_iff.mp held
      obtain ⟨object, found, fits⟩ := agrees.held other before heldBefore
      exact ⟨object, by rw [AList.lookup_erase_ne same, found], kept before object fits⟩
  known other object found := by
    by_cases same : other = address
    · subst same
      rw [AList.lookup_erase] at found
      cases found
    · obtain ⟨turned, becomes, _⟩ := others other same
      rw [AList.lookup_erase_ne same] at found
      obtain ⟨kind, held⟩ := agrees.known other object found
      exact ⟨turned kind, by rw [becomes, held, Option.map_some]⟩
  nodes := nodes

theorem Agrees.drop (agrees : Agrees ledger heap) (treeless : ∀ root, heap.lookup address ≠ some (.nodes root)) :
    Agrees (ledger.drop address) (heap.erase address) := by
  have kept : ∀ ref node, heap.node ref = .ok node → Heap.node (heap.erase address) ref = .ok node := by
    intro ref node found
    refine node_of_erase ?_ found
    rintro rfl
    obtain ⟨root, held, _⟩ := Heap.node_eq_ok_iff.mp found
    exact treeless root held
  refine agrees.erase ledger.handles_drop ?_ ?_
  · intro other apart
    refine ⟨id, ?_, fun _ _ => Fits.mono kept⟩
    rw [ledger.handles_drop_ne apart, Option.map_id, id]
  · intro ref obtained
    obtain ⟨node, found⟩ := agrees.nodes ref obtained
    exact ⟨node, kept ref node found⟩

/-- Nothing is released at the null pointer. -/
theorem Agrees.drop_null (agrees : Agrees ledger heap) : Agrees (ledger.drop 0) heap := by
  rwa [Ledger.drop_eq_self agrees.free_null]

/-- The iterators over a released tree are stranded, and fit nevertheless. -/
theorem Fits.strand (fits : Fits heap kind object) :
    Fits (heap.erase address) (kind.strand address) object := by
  cases fits with
  | context content => exact .context content
  | crashlogs content => exact .crashlogs content
  | crashlog content => exact .crashlog content
  | nodes root => exact .nodes root
  | exported content => exact .exported content
  | stranded content => exact .stranded content
  | @children node children alive =>
      rw [Kind.strand]
      split_ifs with gone
      · exact .stranded _
      · refine .children fun name member => ?_
        obtain ⟨child, found⟩ := alive name member
        exact ⟨child, node_of_erase gone found⟩

theorem Agrees.drop_tree (agrees : Agrees ledger heap) : Agrees (ledger.dropTree address) (heap.erase address) := by
  refine agrees.erase ledger.handles_drop_tree ?_ ?_
  · intro other apart
    exact ⟨Kind.strand address, ledger.handles_drop_tree_ne apart, fun _ _ fits => fits.strand⟩
  · rintro ref ⟨apart, obtained⟩
    obtain ⟨node, found⟩ := agrees.nodes ref obtained
    exact ⟨node, node_of_erase apart found⟩

theorem Agrees.obtain (agrees : Agrees ledger heap) (found : heap.node ref = .ok node) :
    Agrees (ledger.obtain ref) heap where
  null := agrees.null
  held := agrees.held
  known := agrees.known
  nodes other obtained := by
    rcases obtained with rfl | old
    · exact ⟨node, found⟩
    · exact agrees.nodes other old

/-- The names of an iterator are those of children. -/
theorem child_of_name (found : heap.node ref = .ok node) :
    ∀ name ∈ node.children.map Prod.fst, ∃ child, heap.node { ref with path := ref.path ++ [name] } = .ok child := by
  intro name member
  obtain ⟨root, stored, walked⟩ := Heap.node_eq_ok_iff.mp found
  obtain ⟨child, held⟩ := Option.isSome_iff_exists.mp (OrderedMap.lookup_isSome_iff.mpr member)
  refine ⟨child, Heap.node_eq_ok_iff.mpr ⟨root, stored, ?_⟩⟩
  rw [Node.walk_append, walked, Option.bind_some, Node.walk_single]
  exact held

end Agreement

/-! ## One call -/

section Step

variable [UnicodeTables] {library : Library} {ledger : Ledger} {heap after : Heap} {call : Call}
  {response : Response}

omit [UnicodeTables] in
theorem idle_agrees (idle : Idle call response) (agrees : Agrees ledger heap) :
    Agrees (ledger.learn call response) heap := by
  cases idle with
  | made maker =>
      cases call with
      | getNodeChildren node => cases node <;> exact agrees
      | _ => first | exact agrees | cases maker
  | next => exact agrees.drop_null
  | decode => exact agrees
  | read buffer => exact agrees
  | name node buffer count memory => exact agrees
  | value node value after stored => exact agrees
  | child => exact agrees.drop_null
  | path node path => exact agrees
  | release null => exact null ▸ agrees.drop_null
  | releaseNodes => exact agrees
  | releaseExport null => exact null ▸ agrees.drop_null
  | deinit null => exact null ▸ agrees.drop_null

omit [UnicodeTables] in
theorem makes_agrees {object : Object} {address : Address} (makes : Makes library heap call object)
    (fresh : address ≠ 0 ∧ heap.lookup address = none) (agrees : Agrees ledger heap) :
    Agrees (ledger.learn call (.pointer address)) (heap.insert address object) := by
  cases makes with
  | init embedded => exact agrees.hold fresh (.context _)
  | buffer read => exact agrees.hold fresh (.crashlog _)
  | systemTable read => exact agrees.hold fresh (.crashlog _)
  | acpi read => exact agrees.hold fresh (.crashlog _)
  | pmt read => exact agrees.hold fresh (.crashlog _)
  | eventLogs crashlogs => exact agrees.hold fresh (.crashlogs _)
  | cper stored => exact agrees.hold fresh (.exported _)
  | json ref data => exact agrees.hold fresh (.exported _)
  | children found =>
      refine agrees.hold fresh (.children fun name member => ?_)
      obtain ⟨child, held⟩ := child_of_name found name member
      exact ⟨child, node_of_insert (by simp [fresh.2]) held⟩

omit [UnicodeTables] in
/-- A write takes no room elsewhere. -/
theorem fresh_in_written {address pointer : Address} {object : Object} (stored : (heap.lookup pointer).isSome)
    (fresh : address ≠ 0 ∧ heap.lookup address = none) :
    address ≠ 0 ∧ AList.lookup address (heap.insert pointer object) = none := by
  refine ⟨fresh.1, ?_⟩
  rw [AList.lookup_insert_ne, fresh.2]
  rintro rfl
  rw [fresh.2] at stored
  cases stored

/-- What the caller knows after a call agrees with what the call did. -/
theorem does_agrees (agrees : Agrees ledger heap) (allowed : ledger.Allows call)
    (does : Does library heap call response after) : Agrees (ledger.learn call response) after := by
  cases does with
  | idle idle => exact idle_agrees idle agrees
  | made makes fresh => exact makes_agrees makes fresh agrees
  | @took crashlogs address first rest stored fresh =>
      rcases allowed with rfl | held
      · rw [agrees.null] at stored
        cases stored
      · have written := agrees.write held (by simp [stored]) (.crashlogs { crashlogs := rest })
        rw [Ledger.learn, if_neg fresh.1]
        exact written.hold (fresh_in_written (by rw [stored]; rfl) fresh) (.crashlog first)
  | tookAll stored => exact agrees.drop (by simp [stored])
  | @decoded context pointer address crashlog cm last root stored read decodes fresh =>
      obtain ⟨held, _⟩ := allowed
      rcases held with rfl | held
      · rw [agrees.null] at stored
        cases stored
      · have written := agrees.write held (by simp [stored]) (.context { collateralManager := some last })
        have grown := written.hold (fresh_in_written (by rw [stored]; rfl) fresh) (.nodes root)
        exact grown.obtain (Heap.node_eq_ok_iff.mpr ⟨root, AList.lookup_insert _, rfl⟩)
  | @decodedWithoutCm context pointer address crashlog root stored read decodes fresh =>
      have grown := agrees.hold fresh (.nodes root)
      exact grown.obtain (Heap.node_eq_ok_iff.mpr ⟨root, AList.lookup_insert _, rfl⟩)
  | read stored =>
      rcases allowed with rfl | held
      · rw [agrees.null] at stored
        cases stored
      · exact agrees.write held (by simp [stored]) (.exported _)
  | @child pointer ref name rest node stored found =>
      rcases allowed with rfl | ⟨owner, held⟩
      · rw [agrees.null] at stored
        cases stored
      · obtain ⟨object, same, fits⟩ := agrees.held pointer _ held
        rw [stored] at same
        cases same
        cases fits with
        | children alive =>
            have treeless : ∀ root, heap.lookup pointer ≠ some (.nodes root) := by simp [stored]
            have later : Agrees ledger (heap.insert pointer (.children { node := ref, children := rest })) := by
              refine agrees.write held treeless (.children fun other member => ?_)
              obtain ⟨child, there⟩ := alive other (List.mem_cons_of_mem _ member)
              exact ⟨child, node_of_insert treeless there⟩
            exact later.obtain (node_of_insert treeless found)
  | childrenEnd stored => exact agrees.drop (by simp [stored])
  | found found => exact agrees.obtain found
  | released releases =>
      cases releases with
      | crashlog stored => exact agrees.drop (by simp [stored])
      | exported stored => exact agrees.drop (by simp [stored])
      | context stored => exact agrees.drop (by simp [stored])
  | releasedNodes stored => exact agrees.drop_tree

end Step

/-! ## No undefined behavior -/

/-- The call may fail to return, but its behavior is defined. -/
def Defined {α : Type} (result : Except Stop α) : Prop := result ≠ .error .undefined

section Defined

variable {α β : Type} {ledger : Ledger} {heap : Heap} {pointer : Address} {kind : Kind}

theorem Defined.ok (value : α) : Defined (.ok value) := by
  intro same
  cases same

theorem Defined.map {result : Except Stop α} {f : α → β} (defined : Defined result) : Defined (result.map f) := by
  intro same
  cases result with
  | ok value => cases same
  | error stop =>
      cases same
      exact defined rfl

theorem Defined.bind {result : Except Stop α} {next : α → Except Stop β} {value : α} (returned : result = .ok value)
    (defined : Defined (next value)) : Defined (result >>= next) := by
  rw [returned]
  exact defined

theorem alloc_defined (library : Library) (object : Object) (heap : Heap) : Defined (library.alloc object heap) := by
  unfold Library.alloc
  cases library.allocator heap with
  | some address => exact .ok _
  | none =>
      intro same
      cases same

/-- What the caller holds is what it takes it for. -/
theorem deref_of_held {type : Content α} (agrees : Agrees ledger heap) (held : ledger.handles pointer = some kind)
    (typed : ∀ object, Fits heap kind object → ∃ content, object = type.wrap content) :
    ∃ content, heap.deref type pointer = .ok content := by
  obtain ⟨object, found, fits⟩ := agrees.held pointer kind held
  obtain ⟨content, rfl⟩ := typed object fits
  exact ⟨content, Heap.deref_eq_ok_iff.mpr found⟩

theorem deref_context (agrees : Agrees ledger heap) (held : ledger.handles pointer = some .context) :
    ∃ content, heap.deref .context pointer = .ok content :=
  deref_of_held agrees held fun _ fits => by
    cases fits with
    | context content => exact ⟨content, rfl⟩

theorem deref_crashlogs (agrees : Agrees ledger heap) (held : ledger.handles pointer = some .crashlogs) :
    ∃ content, heap.deref .crashlogs pointer = .ok content :=
  deref_of_held agrees held fun _ fits => by
    cases fits with
    | crashlogs content => exact ⟨content, rfl⟩

theorem deref_crashlog (agrees : Agrees ledger heap) (held : ledger.handles pointer = some .crashlog) :
    ∃ content, heap.deref .crashlog pointer = .ok content :=
  deref_of_held agrees held fun _ fits => by
    cases fits with
    | crashlog content => exact ⟨content, rfl⟩

theorem deref_nodes (agrees : Agrees ledger heap) (held : ledger.handles pointer = some .nodes) :
    ∃ content, heap.deref .nodes pointer = .ok content :=
  deref_of_held agrees held fun _ fits => by
    cases fits with
    | nodes root => exact ⟨root, rfl⟩

theorem deref_exported (agrees : Agrees ledger heap) (held : ledger.handles pointer = some .exported) :
    ∃ content, heap.deref .exported pointer = .ok content :=
  deref_of_held agrees held fun _ fits => by
    cases fits with
    | exported content => exact ⟨content, rfl⟩

/-- Releasing what is held. -/
theorem free_defined {type : Content α}
    (held : pointer = 0 ∨ ∃ content, heap.deref type pointer = .ok content) :
    Defined (Library.free type pointer heap) := by
  unfold Library.free
  split_ifs with null
  · exact .ok heap
  · obtain ⟨content, returned⟩ := held.resolve_left null
    exact .bind returned (.ok _)

variable [UnicodeTables] {library : Library}

omit [UnicodeTables] in
theorem alloc_crashlog_defined (result : Except Error CrashLog) : Defined (library.allocCrashlog result heap) := by
  cases result with
  | ok crashlog => exact alloc_defined _ _ _
  | error error => exact .ok _

omit [UnicodeTables] in
theorem init_defined : Defined (library.crashlogInit heap) := by
  unfold Library.crashlogInit
  split
  · exact alloc_defined _ _ _
  · exact alloc_defined _ _ _
  · exact .ok _

omit [UnicodeTables] in
theorem next_defined (agrees : Agrees ledger heap) (held : ledger.Held pointer .crashlogs) :
    Defined (library.crashlogNext pointer heap) := by
  unfold Library.crashlogNext
  split_ifs with null
  · exact .ok _
  · obtain ⟨⟨crashlogs⟩, returned⟩ := deref_crashlogs agrees (held.resolve_left null)
    refine .bind returned ?_
    cases crashlogs with
    | cons first rest => exact alloc_defined _ _ _
    | nil =>
        obtain ⟨final, freed⟩ : ∃ final, Library.free .crashlogs pointer heap = .ok final := by
          rw [Library.free, if_neg null, Library.dropBox, returned]
          exact ⟨_, rfl⟩
        exact .bind freed (.ok _)

theorem decode_defined {context : Address} (agrees : Agrees ledger heap) (held : ledger.Held context .context)
    (logHeld : ledger.Held pointer .crashlog) : Defined (library.crashlogDecode context pointer heap) := by
  unfold Library.crashlogDecode
  split_ifs with null
  · exact .ok _
  · rw [not_or] at null
    obtain ⟨⟨manager⟩, returned⟩ := deref_context agrees (held.resolve_left null.2)
    obtain ⟨crashlog, log⟩ := deref_crashlog agrees (logHeld.resolve_left null.1)
    refine .bind returned (.bind log ?_)
    have stopped {stop : Stop} (apart : stop ≠ .undefined) :
        Defined (Except.error stop : Except Stop (Option NodeRef × Heap)) := by
      intro same
      cases same
      exact apart rfl
    cases manager with
    | some cm =>
        cases decoded : crashlog.decode cm with
        | some ran =>
            simp only [decoded]
            exact (alloc_defined _ _ _).map
        | none =>
            simp only [decoded]
            exact stopped (by decide)
    | none =>
        cases decoded : crashlog.decodeWithoutCm with
        | some root =>
            exact (alloc_defined _ _ _).map
        | none =>
            exact stopped (by decide)

omit [UnicodeTables] in
theorem get_next_node_child_defined (agrees : Agrees ledger heap)
    (held : pointer = 0 ∨ ∃ node, ledger.handles pointer = some (.children node)) :
    Defined (Library.crashlogGetNextNodeChild pointer heap) := by
  unfold Library.crashlogGetNextNodeChild
  split_ifs with null
  · exact .ok _
  · obtain ⟨owner, holds⟩ := held.resolve_left null
    obtain ⟨object, found, fits⟩ := agrees.held pointer _ holds
    cases fits with
    | @children node children alive =>
        have returned : heap.deref .children pointer = .ok { node := owner, children } :=
          Heap.deref_eq_ok_iff.mpr found
        refine .bind returned ?_
        cases children with
        | cons name rest =>
            obtain ⟨child, there⟩ := alive name List.mem_cons_self
            exact .bind there (.ok _)
        | nil =>
            obtain ⟨final, freed⟩ : ∃ final, Library.free .children pointer heap = .ok final := by
              rw [Library.free, if_neg null, Library.dropBox, returned]
              exact ⟨_, rfl⟩
            exact .bind freed (.ok _)

/-- No allowed call touches memory that is not allocated. -/
theorem call_defined {call : Call} (agrees : Agrees ledger heap) (allowed : ledger.Allows call) :
    Defined (library.call call heap) := by
  cases call with
  | init => exact init_defined.map
  | readFromBuffer data => exact (alloc_crashlog_defined _).map
  | readFromSystemTable reported => exact (alloc_crashlog_defined _).map
  | readFromAcpiSysfs reported => exact (alloc_crashlog_defined _).map
  | readFromPmtSysfs reported => exact (alloc_crashlog_defined _).map
  | readFromWindowsEventLogs reported =>
      cases reported with
      | ok crashlogs => exact (alloc_defined _ _ _).map
      | error error => exact .ok _
  | next crashlogs => exact (next_defined agrees allowed).map
  | decode context crashlog => exact (decode_defined agrees allowed.1 allowed.2).map
  | exportToCper crashlog =>
      apply Defined.map
      unfold Library.crashlogExportToCper
      split_ifs with null
      · exact .ok _
      · obtain ⟨content, returned⟩ := deref_crashlog agrees (allowed.resolve_left null)
        exact .bind returned (alloc_defined _ _ _)
  | exportToJson node =>
      apply Defined.map
      cases node with
      | none => exact .ok _
      | some ref =>
          obtain ⟨node, returned⟩ := agrees.nodes ref (allowed ref rfl)
          refine .bind returned ?_
          split
          · exact alloc_defined _ _ _
          · exact .ok _
  | readExport address buffer =>
      apply Defined.map
      unfold Library.crashlogReadExport
      split_ifs with null
      · exact .ok _
      · obtain ⟨content, returned⟩ := deref_exported agrees (allowed.resolve_left null)
        refine .bind returned ?_
        rw [read_export_eq content buffer]
        exact .ok _
  | getNodeName node buffer =>
      apply Defined.map
      cases node with
      | none => exact .ok _
      | some ref =>
          obtain ⟨node, returned⟩ := agrees.nodes ref (allowed ref rfl)
          refine .bind returned ?_
          cases Crashlog.crashlogGetNodeName library.build (some node) buffer with
          | ok written => exact .ok _
          | error panic =>
              intro same
              cases same
  | getNodeValue node value =>
      apply Defined.map
      cases node with
      | none => exact .ok _
      | some ref =>
          obtain ⟨node, returned⟩ := agrees.nodes ref (allowed ref rfl)
          cases value with
          | none => exact .ok _
          | some dst =>
              refine .bind returned ?_
              cases node.kind <;> exact .ok _
  | getNodeChildren node =>
      apply Defined.map
      cases node with
      | none => exact .ok _
      | some ref =>
          obtain ⟨node, returned⟩ := agrees.nodes ref (allowed ref rfl)
          exact .bind returned (alloc_defined _ _ _)
  | getNextNodeChild children => exact (get_next_node_child_defined agrees allowed).map
  | getNodeByPath node path =>
      apply Defined.map
      obtain ⟨known, given⟩ := allowed
      cases node with
      | none => exact .ok _
      | some ref =>
          obtain ⟨node, returned⟩ := agrees.nodes ref (known ref rfl)
          refine .bind returned ?_
          cases path with
          | none => cases given
          | some path =>
              dsimp only
              cases node.getByPath path <;> exact .ok _
  | release crashlog =>
      refine (free_defined ?_).map
      exact allowed.imp_right (deref_crashlog agrees)
  | releaseNodes node =>
      apply Defined.map
      cases node with
      | none => exact .ok _
      | some ref =>
          obtain ⟨top, held⟩ := allowed ref rfl
          obtain ⟨root, returned⟩ := deref_nodes agrees held
          rw [Library.crashlogReleaseNodes, if_pos top]
          exact .bind returned (.ok _)
  | releaseExport address =>
      refine (free_defined ?_).map
      exact allowed.imp_right (deref_exported agrees)
  | deinit context =>
      refine (free_defined ?_).map
      exact allowed.imp_right (deref_context agrees)

end Defined

/-! ## Sessions -/

section Sessions

variable [UnicodeTables]

theorem contract_keeps (library : Library) : library.contract.Keeps Agrees where
  step _ _ _ _ _ agrees allowed returned := does_agrees agrees allowed (call_does returned)

/-- Whatever a caller did that keeps to the contract, its next allowed call has
no undefined behavior, and what is allocated is what the caller holds. -/
theorem session_safe (library : Library) (ledger : Ledger) (heap : Heap)
    (trace : List (Contract.Exchange Heap Call Response))
    (session : library.contract.Session .start ∅ trace ledger heap) :
    (∀ call, ledger.Allows call → library.call call heap ≠ .error .undefined) ∧
      ∀ address, (heap.lookup address).isSome ↔ (ledger.handles address).isSome := by
  have agrees := (contract_keeps library).session session agrees_start
  refine ⟨fun call allowed => call_defined agrees allowed, fun address => ⟨?_, ?_⟩⟩
  · intro allocated
    obtain ⟨object, found⟩ := Option.isSome_iff_exists.mp allocated
    obtain ⟨kind, held⟩ := agrees.known address object found
    rw [held]
    rfl
  · intro holds
    obtain ⟨kind, held⟩ := Option.isSome_iff_exists.mp holds
    obtain ⟨object, found, _⟩ := agrees.held address kind held
    rw [found]
    rfl

end Sessions

/-! ## A short session -/

/-- The address behind all that are taken. -/
def nextAddress (heap : Heap) : Address := heap.keys.foldr max 0 + 1

theorem next_address_fresh (heap : Heap) : nextAddress heap ≠ 0 ∧ heap.lookup (nextAddress heap) = none := by
  have bound : ∀ keys : List Address, ∀ key ∈ keys, key ≤ keys.foldr max 0 := by
    intro keys
    induction keys with
    | nil => exact List.forall_mem_nil _
    | cons first rest ih =>
        rw [List.forall_mem_cons]
        exact ⟨le_max_left _ _, fun key member => (ih key member).trans (le_max_right _ _)⟩
  refine ⟨Nat.succ_ne_zero _, ?_⟩
  rw [AList.lookup_eq_none]
  intro member
  exact absurd (bound heap.keys _ (AList.mem_keys.mp member)) (Nat.not_succ_le_self _)

/-- A library without collateral, on an allocator that always has room. -/
def plainLibrary : Library where
  build := .release
  embeddedTree := none
  jsonToString _ := none
  allocator heap := some (nextAddress heap)
  fresh heap address placed := by
    cases placed
    exact next_address_fresh heap

/-- Two machine check records, whose trees are called `mca` and `mca0`. -/
def mcaLog : CrashLog := { regions := [{ records := [CrashLog.mcaRecord, CrashLog.mcaRecord] }] }

def mcaRoot : Node := (@CrashLog.decodeWithoutCm .ascii mcaLog).getD {}

def contextHeap : Heap := AList.insert 1 (.context { collateralManager := none }) ∅

def logHeap : Heap := contextHeap.insert 2 (.crashlog mcaLog)

def treeHeap : Heap := logHeap.insert 3 (.nodes mcaRoot)

def rootPointer : NodeRef := { tree := 3, path := [] }

/-- A context, a Crash Log and its tree. -/
def treeTrace : List (Contract.Exchange Heap Call Response) :=
  [⟨.init, .pointer 1, contextHeap⟩, ⟨.readFromAcpiSysfs (.ok mcaLog), .pointer 2, logHeap⟩,
    ⟨.decode 1 2, .node (some rootPointer), treeHeap⟩]

def logLedger : Ledger := (Ledger.start.hold 1 .context).hold 2 .crashlog

def treeLedger : Ledger := (logLedger.hold 3 .nodes).obtain rootPointer

theorem tree_session : (@Library.contract .ascii plainLibrary).Session .start ∅ treeTrace treeLedger treeHeap :=
  .step trivial rfl (.step trivial rfl (.step ⟨.inr rfl, .inr rfl⟩ rfl (.done _ _)))

/-- After it three objects are allocated. -/
theorem tree_session_safe :
    (∀ call, treeLedger.Allows call → @Library.call .ascii plainLibrary call treeHeap ≠ .error .undefined) ∧
      ∀ address, (treeHeap.lookup address).isSome ↔ (treeLedger.handles address).isSome :=
  @session_safe .ascii plainLibrary treeLedger treeHeap treeTrace tree_session

/-- An iterator over the children of the root. -/
def childrenHeap : Heap := treeHeap.insert 4 (.children { node := rootPointer, children := ["mca", "mca0"] })

def childrenLedger : Ledger := treeLedger.hold 4 (.children rootPointer)

theorem children_session : (@Library.contract .ascii plainLibrary).Session .start ∅
    (treeTrace ++ [⟨.getNodeChildren (some rootPointer), .pointer 4, childrenHeap⟩]) childrenLedger childrenHeap := by
  refine tree_session.append (.step ?_ rfl (.done _ _))
  rintro ref same
  cases same
  exact .inl rfl

end Crashlog.Ffi
