import Crashlog.FfiContract

/-!
# Trees of C callers

A decoded tree is the one that a new context gives, whatever was decoded with
the context before, and it stays the same until it is released. Everything
that is allocated can be released, except for an iterator whose tree was
released before it came to its end.
-/

namespace Crashlog.Ffi

open Bytes CollateralManager

/-! ## Contexts -/

section Contexts

variable [UnicodeTables] (library : Library)

/-- The tree of a Crash Log that a new context gives. -/
def Library.decodeAlone (crashlog : CrashLog) : Option Node :=
  match library.embeddedTree with
  | none => crashlog.decodeWithoutCm
  | some (.ok cm) => (crashlog.decode cm).map Prod.fst
  | some (.error _) => none

omit [UnicodeTables] in
/-- The manager of a new context has looked up nothing. -/
def Library.New : Prop :=
  ∀ cm, library.embeddedTree = some (.ok cm) → ∃ tree targetInfo, cm = CollateralManager.fresh tree targetInfo

/-- The context decodes like a new one. -/
inductive Serving : CrashLogContext → Prop
  | withoutCm (absent : library.embeddedTree = none) : Serving { collateralManager := none }
  | usingCm {start cm : CollateralManager} (embedded : library.embeddedTree = some (.ok start))
      (serves : Serves start cm) (itself : Serves start start) : Serving { collateralManager := some cm }

/-- All contexts do. -/
def AllServing (heap : Heap) : Prop :=
  ∀ address content, heap.lookup address = some (.context content) → Serving library content

variable {library} {heap after : Heap} {address : Address} {object : Object} {call : Call} {response : Response}

omit [UnicodeTables] in
theorem AllServing.insert (all : AllServing library heap)
    (own : ∀ content, object = .context content → Serving library content) :
    AllServing library (heap.insert address object) := by
  intro other content found
  by_cases same : other = address
  · subst same
    rw [AList.lookup_insert] at found
    exact own content (Option.some.inj found)
  · rw [AList.lookup_insert_ne same] at found
    exact all other content found

omit [UnicodeTables] in
theorem AllServing.erase (all : AllServing library heap) : AllServing library (heap.erase address) := by
  intro other content found
  by_cases same : other = address
  · subst same
    rw [AList.lookup_erase] at found
    cases found
  · rw [AList.lookup_erase_ne same] at found
    exact all other content found

omit [UnicodeTables] in
theorem init_serving (new : library.New) {manager : Option CollateralManager}
    (embedded : library.embeddedTree = manager.map .ok) : Serving library { collateralManager := manager } := by
  cases manager with
  | none => exact .withoutCm embedded
  | some cm =>
      obtain ⟨tree, targetInfo, rfl⟩ := new cm embedded
      exact .usingCm embedded (fresh_serves tree targetInfo) (fresh_serves tree targetInfo)

theorem does_serve (new : library.New) (does : Does library heap call response after)
    (all : AllServing library heap) : AllServing library after := by
  cases does with
  | idle idle => exact all
  | made makes fresh =>
      refine all.insert fun content same => ?_
      cases makes with
      | init embedded =>
          cases same
          exact init_serving new embedded
      | _ => cases same
  | took stored fresh => exact (all.insert fun _ same => by cases same).insert fun _ same => by cases same
  | tookAll stored => exact all.erase
  | @decoded context pointer place crashlog cm last root stored read decodes fresh =>
      refine AllServing.insert (all.insert fun content same => ?_) fun _ same => by cases same
      cases same
      cases all context _ stored with
      | usingCm embedded serves itself =>
          exact .usingCm embedded (crashlog.decode_stateless.kept cm serves root last decodes) itself
  | decodedWithoutCm stored read decodes fresh => exact all.insert fun _ same => by cases same
  | read stored => exact all.insert fun _ same => by cases same
  | child stored found => exact all.insert fun _ same => by cases same
  | childrenEnd stored => exact all.erase
  | found found => exact all
  | released releases => exact all.erase
  | releasedNodes stored => exact all.erase

/-- Whatever the context decoded before, it decodes like a new one. -/
theorem decoded_alone {context pointer : Address} {crashlog : CrashLog} {ref : NodeRef}
    (all : AllServing library heap) (read : heap.lookup pointer = some (.crashlog crashlog))
    (does : Does library heap (.decode context pointer) (.node (some ref)) after) :
    ∃ root, library.decodeAlone crashlog = some root ∧ ref.path = [] ∧
      after.lookup ref.tree = some (.nodes root) := by
  cases does with
  | idle idle => cases idle
  | @decoded context pointer place other cm last root stored held decodes fresh =>
      rw [read] at held
      cases held
      refine ⟨root, ?_, rfl, AList.lookup_insert _⟩
      cases all context _ stored with
      | @usingCm start cm embedded serves itself =>
          have alone := crashlog.decode_stateless.value_eq serves decodes
          rw [Library.decodeAlone, embedded]
          exact (crashlog.decode_stateless.returned start itself).trans alone
  | @decodedWithoutCm context pointer place other root stored held decodes fresh =>
      rw [read] at held
      cases held
      refine ⟨root, ?_, rfl, AList.lookup_insert _⟩
      cases all context _ stored with
      | withoutCm absent => rw [Library.decodeAlone, absent, decodes]

end Contexts

/-! ## Trees -/

section Trees

variable [UnicodeTables] {library : Library} {heap after : Heap} {tree : Address} {root : Node} {call : Call}
  {response : Response}

omit [UnicodeTables] in
theorem tree_insert {address : Address} {object : Object} (stored : heap.lookup tree = some (.nodes root))
    (other : heap.lookup address ≠ some (.nodes root)) :
    AList.lookup tree (heap.insert address object) = some (.nodes root) := by
  rw [← stored]
  apply AList.lookup_insert_ne
  rintro rfl
  exact other stored

omit [UnicodeTables] in
theorem tree_erase {address : Address} (stored : heap.lookup tree = some (.nodes root))
    (remains : (AList.lookup tree (heap.erase address)).isSome) :
    AList.lookup tree (heap.erase address) = some (.nodes root) := by
  by_cases same : tree = address
  · subst same
    rw [AList.lookup_erase] at remains
    cases remains
  · rw [AList.lookup_erase_ne same, stored]

/-- A tree is released, or it stays the same. -/
theorem does_keep_tree (does : Does library heap call response after) (stored : heap.lookup tree = some (.nodes root))
    (remains : (after.lookup tree).isSome) : after.lookup tree = some (.nodes root) := by
  cases does with
  | idle idle => exact stored
  | made makes fresh => exact tree_insert stored (by simp [fresh.2])
  | took held fresh =>
      exact tree_insert (tree_insert stored (by simp [held]))
        (by simp [fresh_in_written (by rw [held]; rfl) fresh])
  | tookAll held => exact tree_erase stored remains
  | decoded held read decodes fresh =>
      exact tree_insert (tree_insert stored (by simp [held]))
        (by simp [fresh_in_written (by rw [held]; rfl) fresh])
  | decodedWithoutCm held read decodes fresh => exact tree_insert stored (by simp [fresh.2])
  | read held => exact tree_insert stored (by simp [held])
  | child held found => exact tree_insert stored (by simp [held])
  | childrenEnd held => exact tree_erase stored remains
  | found found => exact stored
  | released releases => exact tree_erase stored remains
  | releasedNodes held => exact tree_erase stored remains

omit [UnicodeTables] in
theorem get_node_by_path_eq {ref : NodeRef} {node : Node} (found : heap.node ref = .ok node) (path : String) :
    Library.crashlogGetNodeByPath (some ref) (some path) heap =
      .ok ((node.getByPath path).map fun _ => { ref with path := ref.path ++ Text.split '.' path }) := by
  simp only [Library.crashlogGetNodeByPath, found, bind, Except.bind]
  cases node.getByPath path <;> rfl

omit [UnicodeTables] in
theorem get_node_value_eq {ref : NodeRef} {node : Node} (found : heap.node ref = .ok node) (value : UInt64) :
    Library.crashlogGetNodeValue (some ref) (some value) heap =
      .ok (node.value.isSome, some (node.value.getD value)) := by
  simp only [Library.crashlogGetNodeValue, found, Node.value, bind, Except.bind]
  cases node.kind <;> rfl

/-- Looking up a register takes two calls. -/
theorem register_read (stored : heap.lookup tree = some (.nodes root)) (path : String) (value : UInt64) :
    ∃ found, library.call (.getNodeByPath (some { tree, path := [] }) (some path)) heap = .ok (.node found, heap) ∧
      library.call (.getNodeValue found (some value)) heap =
        .ok (.value (root.getValueByPath path).isSome (some ((root.getValueByPath path).getD value)), heap) := by
  have top : heap.node { tree, path := [] } = .ok root := Heap.node_eq_ok_iff.mpr ⟨root, stored, rfl⟩
  have looked := get_node_by_path_eq top path
  cases inside : root.getByPath path with
  | none =>
      refine ⟨none, ?_, ?_⟩
      · rw [Library.call, looked, inside]
        rfl
      · rw [Node.getValueByPath, inside]
        rfl
  | some node =>
      have below : heap.node { tree, path := Text.split '.' path } = .ok node :=
        Heap.node_eq_ok_iff.mpr ⟨root, stored, inside⟩
      refine ⟨some { tree, path := Text.split '.' path }, ?_, ?_⟩
      · rw [Library.call, looked, inside]
        rfl
      · rw [Library.call, get_node_value_eq below, Node.getValueByPath, inside]
        rfl

theorem session_serves (new : library.New) {ledger last : Ledger} {final : Heap}
    {trace : List (Contract.Exchange Heap Call Response)}
    (session : library.contract.Session ledger heap trace last final)
    (all : AllServing library heap) : AllServing library final := by
  have keeps : library.contract.Keeps fun _ heap => AllServing library heap :=
    ⟨fun _ _ _ _ _ all _ returned => does_serve new (call_does returned) all⟩
  exact keeps.session session all

theorem session_keeps_tree {ledger last : Ledger} {final : Heap}
    {trace : List (Contract.Exchange Heap Call Response)}
    (session : library.contract.Session ledger heap trace last final)
    (stored : heap.lookup tree = some (.nodes root))
    (throughout : ∀ exchange ∈ trace, (exchange.after.lookup tree).isSome) :
    final.lookup tree = some (.nodes root) := by
  induction session with
  | done => exact stored
  | step allowed returned _ ih =>
      rw [List.forall_mem_cons] at throughout
      exact ih (does_keep_tree (call_does returned) stored throughout.1) throughout.2

/-- As long as a caller keeps a tree, it reads from it the registers of the tree
that a new context gives for the Crash Log. -/
theorem registers_stay (library : Library) (new : library.New) (ledger last : Ledger) (heap after final : Heap)
    (before trace : List (Contract.Exchange Heap Call Response)) (context pointer : Address) (ref : NodeRef)
    (crashlog : CrashLog) (reached : library.contract.Session .start ∅ before ledger heap)
    (read : heap.lookup pointer = some (.crashlog crashlog))
    (decoded : library.call (.decode context pointer) heap = .ok (.node (some ref), after))
    (session : library.contract.Session (ledger.learn (.decode context pointer) (.node (some ref))) after
      trace last final)
    (throughout : ∀ exchange ∈ trace, (exchange.after.lookup ref.tree).isSome) :
    ∃ root, library.decodeAlone crashlog = some root ∧ ∀ path value, ∃ found,
      library.call (.getNodeByPath (some ref) (some path)) final = .ok (.node found, final) ∧
        library.call (.getNodeValue found (some value)) final =
          .ok (.value (root.getValueByPath path).isSome (some ((root.getValueByPath path).getD value)), final) := by
  have all := session_serves new reached fun _ _ found => by cases found
  obtain ⟨root, alone, top, stored⟩ := decoded_alone all read (call_does decoded)
  have stays := session_keeps_tree session stored throughout
  obtain ⟨tree, path⟩ := ref
  subst top
  exact ⟨root, alone, register_read stays⟩

end Trees

/-! ## A session with collateral -/

theorem Library.contract_call [UnicodeTables] (library : Library) (call : Call) (heap : Heap) :
    library.contract.call call heap = library.call call heap := rfl

/-- The call decodes where the decoder comes to an end and there is room for the tree. -/
theorem decode_returned [UnicodeTables] {library : Library} {heap : Heap} {context pointer address : Address}
    {cm after : CollateralManager} {crashlog : CrashLog} {root : Node}
    (stored : heap.lookup context = some (.context { collateralManager := some cm }))
    (read : heap.lookup pointer = some (.crashlog crashlog)) (given : ¬ (pointer = 0 ∨ context = 0))
    (decoded : crashlog.decode cm = some (root, after))
    (room : library.allocator (heap.insert context (.context { collateralManager := some after })) = some address) :
    library.call (.decode context pointer) heap = .ok (.node (some { tree := address, path := [] }),
      (heap.insert context (.context { collateralManager := some after })).insert address (.nodes root)) := by
  have held : heap.deref .context context = .ok { collateralManager := some cm } := Heap.deref_eq_ok_iff.mpr stored
  have log : heap.deref .crashlog pointer = .ok crashlog := Heap.deref_eq_ok_iff.mpr read
  simp only [Library.call, Library.crashlogDecode, if_neg given, held, log, bind, Except.bind, decoded, Library.alloc,
    room, Except.map, Library.rootRef]

def statusLayout : List Byte := "name;offset;size\nmca.status;0;8".toList.map fun c => UInt8.ofNat c.toNat

def statusManager : CollateralManager :=
  fresh { get := fun _ _ => .ok statusLayout } fun _ =>
    some { product := "XYZ", productId := "0x7a", variant := "all", dieId := fun _ => none }

/-- One layout is embedded, for a product without dies. -/
def collateralLibrary : Library := { plainLibrary with embeddedTree := some (.ok statusManager) }

/-- The tree of the Crash Log, and the manager afterwards. -/
def decodedWith (cm : CollateralManager) : Node × CollateralManager :=
  (@CrashLog.decode .ascii mcaLog cm).getD ({}, cm)

def decodedOnce : Node × CollateralManager := decodedWith statusManager

def decodedTwice : Node × CollateralManager := decodedWith decodedOnce.2

theorem decoded_once : @CrashLog.decode .ascii mcaLog statusManager = some (decodedOnce.1, decodedOnce.2) := by
  have returns : (@CrashLog.decode .ascii mcaLog statusManager).isSome := by decide +kernel
  obtain ⟨ran, decoded⟩ := Option.isSome_iff_exists.mp returns
  rw [decodedOnce, decodedWith, decoded, Option.getD_some]

theorem decoded_twice : @CrashLog.decode .ascii mcaLog decodedOnce.2 = some (decodedTwice.1, decodedTwice.2) := by
  have returns : (@CrashLog.decode .ascii mcaLog decodedOnce.2).isSome := by decide +kernel
  obtain ⟨ran, decoded⟩ := Option.isSome_iff_exists.mp returns
  rw [decodedTwice, decodedWith, decoded, Option.getD_some]

def startedHeap : Heap := AList.insert 1 (.context { collateralManager := some statusManager }) ∅

def loadedHeap : Heap := startedHeap.insert 2 (.crashlog mcaLog)

def onceHeap : Heap :=
  (loadedHeap.insert 1 (.context { collateralManager := some decodedOnce.2 })).insert 3 (.nodes decodedOnce.1)

def twiceHeap : Heap :=
  (onceHeap.insert 1 (.context { collateralManager := some decodedTwice.2 })).insert 4 (.nodes decodedTwice.1)

def topOf (tree : Address) : NodeRef := { tree, path := [] }

/-- A context with collateral, a Crash Log and its first tree. -/
def decodeTrace : List (Contract.Exchange Heap Call Response) :=
  [⟨.init, .pointer 1, startedHeap⟩, ⟨.readFromAcpiSysfs (.ok mcaLog), .pointer 2, loadedHeap⟩,
    ⟨.decode 1 2, .node (some (topOf 3)), onceHeap⟩]

def onceLedger : Ledger := (logLedger.hold 3 .nodes).obtain (topOf 3)

theorem once_session :
    (@Library.contract .ascii collateralLibrary).Session .start ∅ decodeTrace onceLedger onceHeap := by
  have decoded : @Library.call .ascii collateralLibrary (.decode 1 2) loadedHeap =
      .ok (.node (some (topOf 3)), onceHeap) :=
    @decode_returned .ascii collateralLibrary loadedHeap 1 2 3 statusManager decodedOnce.2 mcaLog decodedOnce.1
      rfl rfl (by decide) decoded_once rfl
  exact .step trivial rfl (.step trivial rfl (.step ⟨.inr rfl, .inr rfl⟩
    ((@Library.contract_call .ascii _ _ _).trans decoded) (.done _ _)))

def namesHeap : Heap :=
  (twiceHeap.erase 3).insert 5 (.children { node := topOf 4, children := decodedTwice.1.children.map Prod.fst })

/-- The first tree and the Crash Log are released, and the children of the second tree looked up. -/
def laterTrace : List (Contract.Exchange Heap Call Response) :=
  [⟨.releaseNodes (some (topOf 3)), .unit, twiceHeap.erase 3⟩,
    ⟨.getNodeChildren (some (topOf 4)), .pointer 5, namesHeap⟩, ⟨.release 2, .unit, namesHeap.erase 2⟩]

def laterLedger : Ledger :=
  ((((onceLedger.hold 4 .nodes).obtain (topOf 4)).dropTree 3).hold 5 (.children (topOf 4))).drop 2
/-- The Crash Log was decoded before with the same context. -/
theorem mca_registers_stay :
    ∃ tree, @Library.decodeAlone .ascii collateralLibrary mcaLog = some tree ∧ ∀ path value, ∃ found,
      @Library.call .ascii collateralLibrary (.getNodeByPath (some (topOf 4)) (some path)) (namesHeap.erase 2) =
          .ok (.node found, namesHeap.erase 2) ∧
        @Library.call .ascii collateralLibrary (.getNodeValue found (some value)) (namesHeap.erase 2) =
          .ok (.value (tree.getValueByPath path).isSome (some ((tree.getValueByPath path).getD value)),
            namesHeap.erase 2) := by
  have fresh : collateralLibrary.New := by
    intro cm embedded
    cases embedded
    exact ⟨_, _, rfl⟩
  have decoded : @Library.call .ascii collateralLibrary (.decode 1 2) onceHeap =
      .ok (.node (some (topOf 4)), twiceHeap) :=
    @decode_returned .ascii collateralLibrary onceHeap 1 2 4 decodedOnce.2 decodedTwice.2 mcaLog decodedTwice.1
      rfl rfl (by decide) decoded_twice rfl
  refine @registers_stay .ascii collateralLibrary fresh onceLedger laterLedger onceHeap twiceHeap (namesHeap.erase 2)
    decodeTrace laterTrace 1 2 (topOf 4) mcaLog once_session rfl decoded ?_ ?_
  · refine .step ?_ rfl (.step ?_ rfl (.step (.inr rfl) rfl (.done _ _)))
    · rintro ref same
      cases same
      exact ⟨rfl, rfl⟩
    · rintro ref same
      cases same
      exact ⟨by decide, .inl rfl⟩
  · rw [laterTrace, List.forall_mem_cons, List.forall_mem_cons, List.forall_mem_singleton]
    exact ⟨rfl, rfl, rfl⟩

/-! ## What can be released -/

section Releasing

variable [UnicodeTables] {library : Library} {ledger : Ledger} {heap after : Heap} {address : Address} {call : Call}
  {response : Response}

/-- Some further calls that are allowed, after which nothing is at the address. -/
def Releasable (library : Library) (ledger : Ledger) (heap : Heap) (address : Address) : Prop :=
  ∃ trace last final, library.contract.Session ledger heap trace last final ∧ final.lookup address = none

theorem Releasable.now (allowed : ledger.Allows call) (returned : library.call call heap = .ok (response, after))
    (gone : after.lookup address = none) : Releasable library ledger heap address :=
  ⟨[⟨call, response, after⟩], _, after, .step allowed returned (.done _ _), gone⟩

theorem Releasable.later (allowed : ledger.Allows call) (returned : library.call call heap = .ok (response, after))
    (below : Releasable library (ledger.learn call response) after address) : Releasable library ledger heap address := by
  obtain ⟨trace, last, final, session, gone⟩ := below
  exact ⟨⟨call, response, after⟩ :: trace, last, final, .step allowed returned session, gone⟩

omit [UnicodeTables] in
theorem free_eq {α : Type} {type : Content α} (place : address ≠ 0) {content : α}
    (stored : heap.lookup address = some (type.wrap content)) :
    Library.free type address heap = .ok (heap.erase address) := by
  rw [Library.free, if_neg place, Library.dropBox, Heap.deref_eq_ok_iff.mpr stored]
  rfl

/-- A call that releases what it is given. -/
theorem Releasable.free {α : Type} (type : Content α) {content : α} (place : address ≠ 0)
    (stored : heap.lookup address = some (type.wrap content)) (allowed : ledger.Allows call)
    (releases : library.call call heap = (Library.free type address heap).map fun heap => (Response.unit, heap)) :
    Releasable library ledger heap address := by
  rw [free_eq place stored] at releases
  exact .now allowed releases (AList.lookup_erase _ _)

end Releasing

end Crashlog.Ffi
