import Crashlog.CheckedParse
import Crashlog.RecordCount

/-!
# Decoding with checks

What is done with the records that were read, as a debug build does it: the
counter of a merge is a signed 32-bit number, and a hierarchy expects to find
the section that it has added. Only the counter can overflow, once a slot has
more than 2 ^ 31 records; a container that stores the same bytes many times
gets there with a few megabytes.
-/

namespace Crashlog.Checked

open Bytes

/-! ## Payload and checksum -/

/-- Subtraction from the length saturates. -/
def Record.payload (record : Record) : Checked (List Byte) := do
  let start ← Header.headerSize record.header
  let stop := record.data.length - if record.header.version.cldic then 4 else 0
  .ok ((Bytes.slice record.data start stop).getD [])

/-- An incomplete dword at the end counts as zero; the sum wraps around. -/
def Record.checksum (record : Record) : Checked (Option Bool) :=
  if record.header.version.cldic then do
    let dwords ← chunks 4 record.data
    let sum := (dwords.map fun dword => if dword.length = 4 then UInt32.ofNat (decodeLE dword) else 0).foldl
      (· + ·) 0
    .ok (some (sum == 0))
  else .ok none

/-! ## The tree -/

/-- The loop of `merge_instance`; the counter is an `i32`. -/
def freeName (taken : String → Bool) (name current : String) (counter : Nat) : Checked String :=
  if taken current then
    if counter + 1 < 2 ^ 31 then freeName taken name (name ++ toString counter) (counter + 1)
    else .error .overflow
  else .ok current
termination_by 2 ^ 31 - counter

def Node.mergeInstance (self other : Node) : Checked Node :=
  (freeName (fun name => (self.get name).isSome) other.name other.name 0).map fun name =>
    self.add { other with name }

mutual

def Node.merge (self : Node) : Node → Checked Node
  | ⟨_, _, _, children⟩ => Node.mergeChildren self children

/-- The loop of `merge`. -/
def Node.mergeChildren (self : Node) : List (String × Node) → Checked Node
  | [] => .ok self
  | (_, child) :: rest => do
      let merged ← (match self.get child.name with
        | none => .ok (self.add child)
        | some selfChild =>
            match selfChild.kind with
            | .record | .field _ => Node.mergeInstance self child
            | .root | .sect => (Node.merge selfChild child).map (self.setChild child.name))
      Node.mergeChildren merged rest

end

variable [UnicodeTables]

def Node.createHierarchyFromIter (self : Node) (path : List String) (update : Node → Checked Node) :
    Checked Node :=
  match path with
  | [] => update self
  | name :: rest =>
      let ptr := if (self.get name).isNone then self.add (Node.newSection name) else self
      match ptr.get name with
      | none => .error .missing
      | some child => (Node.createHierarchyFromIter child rest update).map (ptr.setChild name)

def Record.decodeWithoutCm (record : Record) : Checked Node :=
  match record.getRootPath with
  | some customRoot =>
      Node.createHierarchyFromIter Node.newRoot (Text.split '.' customRoot) fun ptr =>
        Node.merge ptr record.decodeHeader
  | none => Node.merge Node.newRoot record.decodeHeader

/-- The body of the inner loop of `decodeWithoutCm`. -/
def CrashLog.mergeRecord (root : Node) (record : Record) : Checked Node := do
  let decoded ← Record.decodeWithoutCm record
  Node.merge root decoded

def CrashLog.decodeWithoutCm (crashlog : CrashLog) : Checked Node :=
  crashlog.regions.foldlM (fun root region => region.records.foldlM CrashLog.mergeRecord root) Node.newRoot

/-! ## Merging a branch -/

section Search

variable {taken : String → Bool} {name : String}

omit [UnicodeTables] in
theorem free_name_step {tries : Nat} (small : tries < 2 ^ 31) (here : taken (Text.instanceName name tries)) :
    freeName taken name (Text.instanceName name tries) tries =
      if tries + 1 < 2 ^ 31 then freeName taken name (Text.instanceName name (tries + 1)) (tries + 1)
      else .error .overflow := by
  have next : name ++ toString tries = Text.instanceName name (tries + 1) := by
    rw [Text.instanceName, Text.display_nat small]
  rw [freeName, if_pos here, next]

omit [UnicodeTables] in
theorem free_name_found {start count : Nat} (before : ∀ i < count, taken (Text.instanceName name (start + i)))
    (free : taken (Text.instanceName name (start + count)) = false) (small : start + count < 2 ^ 31) :
    freeName taken name (Text.instanceName name start) start = .ok (Text.instanceName name (start + count)) := by
  induction count generalizing start with
  | zero =>
      rw [Nat.add_zero] at free
      rw [freeName, if_neg (by simp [free]), Nat.add_zero]
  | succ count ih =>
      have shifted : ∀ i, start + (i + 1) = start + 1 + i := by omega
      rw [free_name_step (by omega) (by simpa using before 0 (by omega)), if_pos (by omega), shifted count]
      apply ih
      · intro i below
        rw [← shifted]
        exact before (i + 1) (by omega)
      · rw [← shifted]
        exact free
      · omega

omit [UnicodeTables] in
/-- The counter overflows when it should count the last of its values. -/
theorem free_name_overflow {start : Nat} (small : start < 2 ^ 31)
    (crowded : ∀ i < 2 ^ 31, taken (Text.instanceName name i)) :
    freeName taken name (Text.instanceName name start) start = .error .overflow := by
  induction left : 2 ^ 31 - start using Nat.strong_induction_on generalizing start with
  | _ left ih =>
      rw [free_name_step small (crowded start small)]
      by_cases more : start + 1 < 2 ^ 31
      · rw [if_pos more]
        exact ih (2 ^ 31 - (start + 1)) (by omega) more rfl
      · rw [if_neg more]

end Search

section Branches

variable {self base leaf child : Crashlog.Node} {path : List String} {count : Nat}

omit [UnicodeTables] in
theorem merge_children_single (self child : Crashlog.Node) (key : String) :
    Node.mergeChildren self [(key, child)] =
      match self.get child.name with
      | none => .ok (self.add child)
      | some selfChild =>
          match selfChild.kind with
          | .record | .field _ => Node.mergeInstance self child
          | .root | .sect => (Node.merge selfChild child).map (self.setChild child.name) := by
  rw [Node.mergeChildren]
  simp only [Node.mergeChildren]
  exact bind_pure _

omit [UnicodeTables] in
theorem merge_eq (self other : Crashlog.Node) : Node.merge self other = Node.mergeChildren self other.children := by
  cases other
  rw [Node.merge]

/-- A leaf is added under its first free instance name. -/
theorem merge_hang_here (instances : self.Instances [] leaf.name count) (small : count < 2 ^ 31) :
    Node.merge self (Node.hang base leaf []) =
      .ok (self.add { leaf with name := Text.instanceName leaf.name count }) := by
  have free := instances.free
  have taken := instances.taken
  have record := instances.record
  simp only [List.nil_append, Node.walk_single] at free taken record
  rw [Node.hang, merge_eq, merge_children_single]
  cases count with
  | zero =>
      rw [Text.instanceName] at free
      rw [free, Text.instanceName]
      cases leaf
      rfl
  | succ count =>
      obtain ⟨node, found⟩ := Option.isSome_iff_exists.mp (taken 0 (by omega))
      rw [Text.instanceName] at found
      have kind := record node found
      have name : freeName (fun name => (self.get name).isSome) leaf.name
          (Text.instanceName leaf.name 0) 0 = .ok (Text.instanceName leaf.name (0 + (count + 1))) := by
        apply free_name_found
        · intro i below
          rw [Nat.zero_add]
          exact taken i below
        · rw [Nat.zero_add, free]
          rfl
        · omega
      rw [Nat.zero_add, Text.instanceName] at name
      simp only [found, kind, Node.mergeInstance, name]
      rfl

/-- A branch is merged as in a release build, as long as the counter has values. -/
theorem merge_hang {merged : Crashlog.Node} (lowercase : ∀ name ∈ path, Node.Lowercase name)
    (sections : self.Open path) (instances : self.Instances path leaf.name count) (small : count < 2 ^ 31)
    (plain : self.merge (Node.hang base leaf path) = some merged) :
    Node.merge self (Node.hang base leaf path) = .ok merged := by
  induction path generalizing self base merged with
  | nil =>
      rw [Node.merge_hang_here instances (by omega)] at plain
      cases plain
      exact merge_hang_here instances small
  | cons name rest ih =>
      have own : (Node.newSection name).name = name := lowercase name (by simp)
      rw [Node.hang, Node.merge_eq, Node.merge_children_single, Node.hang_name, own] at plain
      rw [Node.hang, merge_eq, merge_children_single, Node.hang_name, own]
      cases found : self.get name with
      | none =>
          rw [found] at plain
          cases plain
          rfl
      | some child =>
          obtain ⟨kind, childOpen⟩ := sections.child found
          simp only [found, kind] at plain ⊢
          obtain ⟨inner, below, rfl⟩ := Option.map_eq_some_iff.mp plain
          rw [ih (fun other member => lowercase other (by simp [member])) childOpen
            (instances.of_child found) below]
          rfl

/-- With all its values used up the counter overflows. -/
theorem merge_hang_overflow (lowercase : ∀ name ∈ path, Node.Lowercase name) (sections : self.Open path)
    (taken : ∀ i < 2 ^ 31, (self.walk (path ++ [Text.instanceName leaf.name i])).isSome)
    (record : ∀ node, self.walk (path ++ [leaf.name]) = some node → node.kind = .record) :
    Node.merge self (Node.hang base leaf path) = .error .overflow := by
  induction path generalizing self base with
  | nil =>
      simp only [List.nil_append, Node.walk_single] at taken record
      obtain ⟨node, found⟩ := Option.isSome_iff_exists.mp (taken 0 (by decide))
      rw [Text.instanceName] at found
      have kind := record node found
      have lost : freeName (fun name => (self.get name).isSome) leaf.name
          (Text.instanceName leaf.name 0) 0 = .error .overflow := free_name_overflow (by decide) taken
      rw [Text.instanceName] at lost
      rw [Node.hang, merge_eq, merge_children_single]
      simp only [found, kind, Node.mergeInstance, lost]
      rfl
  | cons name rest ih =>
      have own : (Node.newSection name).name = name := lowercase name (by simp)
      rw [Node.hang, merge_eq, merge_children_single, Node.hang_name, own]
      cases found : self.get name with
      | none =>
          have first := taken 0 (by decide)
          rw [List.cons_append, Node.walk_cons, found] at first
          cases first
      | some child =>
          obtain ⟨kind, childOpen⟩ := sections.child found
          have below := @ih child (Node.newSection name)
            (fun other member => lowercase other (by simp [member])) childOpen
            (by simpa only [List.cons_append, Node.walk_child found] using taken)
            (by simpa only [List.cons_append, Node.walk_child found] using record)
          simp only [kind, below]
          rfl

/-- Building a hierarchy in a node without children finds every section it adds. -/
theorem create_hierarchy_hang (childless : base.children = [])
    (lowercase : ∀ name ∈ path, Node.Lowercase name) :
    Node.createHierarchyFromIter base path (fun ptr => Node.merge ptr (Node.newRoot.add leaf)) =
      .ok (Node.hang base leaf path) := by
  induction path generalizing base with
  | nil =>
      have single : (Node.newRoot.add leaf).children = [(leaf.name, leaf)] := rfl
      rw [Node.createHierarchyFromIter, merge_eq, single, merge_children_single, Node.get_childless childless]
      rw [Node.add_to_childless childless]
      rfl
  | cons name rest ih =>
      have own : (Node.newSection name).name = name := lowercase name (by simp)
      have below := @ih (Node.newSection name) rfl fun other member => lowercase other (by simp [member])
      have ptr : base.add (Node.newSection name) = base.setChild name (Node.newSection name) := by
        rw [Node.add, own]
      rw [Node.createHierarchyFromIter]
      simp only [Node.get_childless childless, Option.isNone_none, if_true, ptr, Node.get_set_child_self, below]
      simp [Except.map, Node.hang, Node.setChild, childless, OrderedMap.insert]

end Branches

/-! ## All records -/

/-- No slot has more records than the counter has values. -/
def SlotsFit (records : List Record) : Prop :=
  ∀ before record after, records = before ++ record :: after → record.earlier before < 2 ^ 31

theorem slots_fit_iff {records : List Record} :
    SlotsFit records ↔ ∀ record ∈ records, records.countP record.sameSlot ≤ 2 ^ 31 := by
  constructor
  · intro fit record _
    by_contra crowded
    have last : 2 ^ 31 < records.countP record.sameSlot := by omega
    obtain ⟨before, other, after, split, same, count⟩ := Record.exists_counted last
    have less := fit before other after split
    rw [Record.earlier, ← Record.same_slot_congr same, count] at less
    exact absurd less (lt_irrefl _)
  · intro counts before record after split
    have less := Record.earlier_lt split record.same_slot_self
    have bound := counts record (by simp [split])
    omega

theorem slots_fit_snoc {records : List Record} {record : Record} :
    SlotsFit (records ++ [record]) ↔ SlotsFit records ∧ record.earlier records < 2 ^ 31 := by
  constructor
  · intro fit
    refine ⟨?_, fit records record [] rfl⟩
    intro before other after split
    exact fit before other (after ++ [record]) (by simp [split])
  · rintro ⟨fit, small⟩ before other after split
    rcases Decoded.split_snoc split with ⟨_, rfl, rfl⟩ | ⟨rest, _, old⟩
    · exact small
    · exact fit _ _ _ old

theorem decode_record (record : Record) :
    Record.decodeWithoutCm record =
      .ok (Node.hang Node.newRoot (record.node record.typeName) record.location) := by
  have lowercase := record.location_lowercase
  rw [Record.root_path_location] at lowercase ⊢
  unfold Record.decodeWithoutCm
  rw [Record.decode_header_eq]
  cases known : record.getRootPath with
  | some path =>
      rw [known] at lowercase
      exact create_hierarchy_hang rfl lowercase
  | none =>
      have direct : Node.createHierarchyFromIter Node.newRoot [] (fun ptr =>
          Node.merge ptr (Node.newRoot.add (record.node record.typeName))) = .ok (Node.hang _ _ []) :=
        create_hierarchy_hang rfl (by simp)
      rwa [Node.createHierarchyFromIter] at direct

section Records

variable {records : List Record} {root : Crashlog.Node} {record : Record}

/-- One more record. -/
theorem merge_record (decoded : Decoded records root) (small : record.earlier records < 2 ^ 31) :
    ∃ merged, CrashLog.mergeRecord root record = .ok merged ∧ Decoded (records ++ [record]) merged := by
  obtain ⟨merged, plain, next⟩ := decoded.step (by omega : record.earlier records ≤ 2 ^ 32)
  rw [Crashlog.CrashLog.mergeRecord, record.decode_without_cm_eq] at plain
  refine ⟨merged, ?_, next⟩
  rw [CrashLog.mergeRecord, decode_record]
  exact merge_hang record.location_lowercase (decoded.sections record) (decoded.instances (by omega)) small plain

theorem merge_record_overflow (decoded : Decoded records root) (crowded : 2 ^ 31 ≤ record.earlier records) :
    CrashLog.mergeRecord root record = .error .overflow := by
  rw [CrashLog.mergeRecord, decode_record]
  apply merge_hang_overflow record.location_lowercase (decoded.sections record)
  · intro i below
    obtain ⟨other, found⟩ := decoded.slot_present (below.trans_le crowded)
    have name : (record.node record.typeName).name = record.typeName := rfl
    rw [name, found]
    rfl
  · intro node walked
    obtain ⟨other, found⟩ := decoded.slot_present ((Nat.two_pow_pos 31).trans_le crowded)
    have name : (record.node record.typeName).name = record.typeName := rfl
    rw [Text.instanceName, ← name, walked] at found
    cases found
    rfl

/-- All records, one after the other. -/
theorem merge_records (records : List Record) :
    (SlotsFit records → ∃ root,
      records.foldlM CrashLog.mergeRecord Node.newRoot = .ok root ∧ Decoded records root) ∧
      (¬ SlotsFit records → records.foldlM CrashLog.mergeRecord Node.newRoot = .error .overflow) := by
  induction records using List.reverseRecOn with
  | nil =>
      refine ⟨fun _ => ⟨Node.newRoot, rfl, .start⟩, fun crowded => ?_⟩
      exact absurd (fun before record after split => by simp at split) crowded
  | append_singleton records record ih =>
      have last : ∀ root : Crashlog.Node, [record].foldlM CrashLog.mergeRecord root =
          CrashLog.mergeRecord root record := by
        intro root
        simp
      rw [List.foldlM_append, slots_fit_snoc]
      by_cases fit : SlotsFit records
      · obtain ⟨root, merged, decoded⟩ := ih.1 fit
        simp only [merged, last]
        constructor
        · rintro ⟨_, small⟩
          exact merge_record decoded small
        · intro crowded
          exact merge_record_overflow decoded (by have := not_and.mp crowded fit; omega)
      · rw [ih.2 fit]
        exact ⟨fun both => absurd both.1 fit, fun _ => rfl⟩

theorem decode_without_cm_eq (crashlog : CrashLog) :
    CrashLog.decodeWithoutCm crashlog = crashlog.records.foldlM CrashLog.mergeRecord Node.newRoot :=
  crashlog.foldlM_regions CrashLog.mergeRecord Node.newRoot

end Records

/-! ## Reading untrusted bytes -/

/-- Reading the bytes and decoding what was read does not panic. -/
structure NeverPanics (s : List Byte) : Prop where
  read : ∃ result, CrashLog.fromSlice s = .ok result
  decoded : ∀ crashlog, CrashLog.fromSlice s = .ok (.ok crashlog) →
    ∃ root, CrashLog.decodeWithoutCm crashlog = .ok root
  payloads : ∀ crashlog, CrashLog.fromSlice s = .ok (.ok crashlog) → ∀ record ∈ crashlog.records,
    ∃ payload, Record.payload record = .ok payload
  checksums : ∀ crashlog, CrashLog.fromSlice s = .ok (.ok crashlog) → ∀ record ∈ crashlog.records,
    ∃ checksum, Record.checksum record = .ok checksum

omit [UnicodeTables] in
theorem payload_returns (record : Record) : ∃ payload, Record.payload record = .ok payload := by
  have start : Header.headerSize record.header = .ok record.header.headerSize :=
    (header_size_agrees record.header).returns trivial
  rw [Record.payload, start]
  exact ⟨_, rfl⟩

omit [UnicodeTables] in
theorem checksum_returns (record : Record) : ∃ checksum, Record.checksum record = .ok checksum := by
  unfold Record.checksum
  split_ifs
  · exact ⟨_, rfl⟩
  · exact ⟨_, rfl⟩

/-- No more than 2 ^ 31 of the records stored in a slice share a slot. -/
def SlotsCounted (s : List Byte) : Prop :=
  ∀ record ∈ storedRecords s, (storedRecords s).countP record.sameSlot ≤ 2 ^ 31

omit [UnicodeTables] in
theorem read_short {s : List Byte} (short : s.length < 2 ^ 31) (crashlog : CrashLog) :
    CrashLog.fromSlice s = .ok (.ok crashlog) ↔ Crashlog.CrashLog.fromSlice s = .ok crashlog := by
  rw [(from_slice_agrees s).returns short, Except.ok.injEq]

theorem never_panics_of_counts {s : List Byte} (short : s.length < 2 ^ 31) (counted : SlotsCounted s) :
    NeverPanics s where
  read := ⟨_, (from_slice_agrees s).returns short⟩
  decoded crashlog found := by
    have stored := Crashlog.CrashLog.records_stored ((read_short short crashlog).mp found)
    have fit : SlotsFit crashlog.records := by
      rw [stored]
      exact slots_fit_iff.mpr counted
    obtain ⟨root, merged, _⟩ := (merge_records crashlog.records).1 fit
    exact ⟨root, (decode_without_cm_eq crashlog).trans merged⟩
  payloads _ _ record _ := payload_returns record
  checksums _ _ record _ := checksum_returns record

theorem counts_of_never_panics {s : List Byte} (short : s.length < 2 ^ 31) (safe : NeverPanics s) :
    SlotsCounted s := by
  intro record member
  obtain ⟨crashlog, found⟩ := Crashlog.CrashLog.read_of_stored member
  obtain ⟨root, decoded⟩ := safe.decoded crashlog ((read_short short crashlog).mpr found)
  rw [decode_without_cm_eq, Crashlog.CrashLog.records_stored found] at decoded
  apply slots_fit_iff.mp _ record member
  by_contra crowded
  rw [(merge_records (storedRecords s)).2 crowded] at decoded
  cases decoded

/-- Nothing panics on less than 2 GiB exactly when no more than 2 ^ 31 of the
records in the slice share a location and a type name: the only check that can
fail is that of the instance counter. -/
theorem never_panics_iff (s : List Byte) (short : s.length < 2 ^ 31) :
    NeverPanics s ↔ ∀ record ∈ storedRecords s, (storedRecords s).countP record.sameSlot ≤ 2 ^ 31 :=
  ⟨counts_of_never_panics short, never_panics_of_counts short⟩

omit [UnicodeTables] in
/-- The two records share a slot. -/
theorem two_records_never_panic :
    @NeverPanics .ascii (List.replicate 2 CrashLog.mcaBytes).flatten := by
  let _ := UnicodeTables.ascii
  apply (never_panics_iff _ (by decide)).mpr
  intro record _
  rw [← Crashlog.CrashLog.records_stored (CrashLog.mca_crashlog 1)]
  simp only [CrashLog.records, List.map_singleton, List.flatten_singleton]
  apply List.countP_le_length.trans
  rw [List.length_replicate]
  decide

omit [UnicodeTables] in
/-- In a container of five megabytes with 65535 descriptors for one section of
32769 records, one more than 2 ^ 31 records share a slot. -/
theorem shared_section_overflows_counter :
    ¬ ∀ (_ : UnicodeTables) (s : List Byte), s.length < 2 ^ 31 → NeverPanics s := by
  intro safe
  have size : (Cper.sharedContainer (65534 + 1) (CrashLog.mcaSection (32768 + 1)).toBytes).length < 2 ^ 31 := by
    rw [Cper.shared_container_length, CrashLog.mca_section_length, Cper.bodyStart]
    decide
  let _ := UnicodeTables.ascii
  have counts := counts_of_never_panics size (safe .ascii _ size) CrashLog.mcaRecord
  rw [CrashLog.shared_records 65534 32768 (by decide) (by decide), List.countP_replicate,
    if_pos (Record.same_slot_self CrashLog.mcaRecord)] at counts
  have bound := counts (List.mem_replicate.mpr ⟨by decide, rfl⟩)
  omega

/-- Outside of CPER containers no slot is large enough. -/
theorem never_panics_outside_cper {s : List Byte} (short : s.length < 2 ^ 31) (other : ¬ CPER_SIGNATURE <+: s) :
    NeverPanics s := by
  apply never_panics_of_counts short
  intro record _
  calc (storedRecords s).countP record.sameSlot
      ≤ (storedRecords s).length := List.countP_le_length
    _ ≤ storedBytes s := stored_records_le s
    _ ≤ s.length := stored_bytes_le other
    _ ≤ 2 ^ 31 := short.le

end Crashlog.Checked
