import Crashlog.Header

/-!
# Regions

A region is a sequence of records. The parser walks over the bytes with a
cursor, stops at a termination marker, at an unreadable header or at an empty
record, and keeps what it read so far. `Records` describes the same walk as a
relation between bytes and records, without a cursor; every statement about
the parser goes through it.
-/

namespace Crashlog

open Bytes

structure Context where
  parentHeader : Option Header := none
  deriving DecidableEq, Repr

structure Record where
  header : Header := {}
  data : List Byte := []
  context : Context := {}
  deriving DecidableEq, Repr

structure Region where
  records : List Record := []
  deriving DecidableEq, Repr

namespace Region

def setChildContext (region : Region) (header : Header) : Region where
  records := region.records.map fun record =>
    { record with context := { record.context with parentHeader := some header } }

/-- The loop of `fromSlice`: the state is the cursor and the records read so far. -/
def fromSliceLoop (bytes : List Byte) (cursor : Nat) (records : List Record) :
    Except Error (List Record) :=
  if cursor < bytes.length then
    match Header.fromSlice (bytes.drop cursor) with
    | .ok none => .ok records
    | .error error => if records.isEmpty then .error error else .ok records
    | .ok (some header) =>
        let recordSize := header.recordSize
        if recordSize = 0 then .ok records
        else
          -- A record that claims more bytes than are left is truncated.
          let limit := min (cursor + recordSize) bytes.length
          fromSliceLoop bytes (cursor + recordSize)
            (records ++ [{ header, data := (bytes.drop cursor).take (limit - cursor) }])
  else .ok records
termination_by bytes.length - cursor

def fromSlice (bytes : List Byte) : Except Error Region := do
  let records ← fromSliceLoop bytes 0 []
  if records.isEmpty then .error .emptyRegion else .ok { records }

def toBytes (region : Region) : List Byte := (region.records.map Record.data).flatten

end Region

/-! ## The walk as a relation -/

/-- The walk reads no record at `bytes`: they are used up, begin with a
termination marker or an unreadable header, or describe an empty record. -/
inductive Stops (bytes : List Byte) : Prop where
  | marker (read : Header.fromSlice bytes = .ok none)
  | unreadable (error : Error) (read : Header.fromSlice bytes = .error error)
  | empty (header : Header) (read : Header.fromSlice bytes = .ok (some header))
      (size : header.recordSize = 0)

inductive Records : List Byte → List Record → Prop where
  | stop {bytes : List Byte} (stops : Stops bytes) : Records bytes []
  | record {bytes : List Byte} {records : List Record} (header : Header)
      (read : Header.fromSlice bytes = .ok (some header)) (size : header.recordSize ≠ 0)
      (rest : Records (bytes.drop header.recordSize) records) :
      Records bytes ({ header, data := bytes.take header.recordSize } :: records)

def recordsToBytes (records : List Record) : List Byte := (records.map Record.data).flatten

@[simp] theorem records_to_bytes_nil : recordsToBytes [] = [] := rfl

@[simp] theorem records_to_bytes_cons (record : Record) (records : List Record) :
    recordsToBytes (record :: records) = record.data ++ recordsToBytes records := rfl

theorem header_from_slice_nil : Header.fromSlice [] = .ok none := rfl

theorem stops_nil : Stops [] := .marker header_from_slice_nil

namespace Records

variable {bytes : List Byte} {records others : List Record}

theorem unique (left : Records bytes records) (right : Records bytes others) : records = others := by
  induction left generalizing others with
  | stop stops =>
      cases right with
      | stop _ => rfl
      | record header read size _ =>
          cases stops with
          | marker stop => rw [stop] at read; cases read
          | unreadable error stop => rw [stop] at read; cases read
          | empty other stop zero =>
              rw [stop] at read
              cases read
              exact absurd zero size
  | record header read size _ ih =>
      cases right with
      | stop stops =>
          cases stops with
          | marker stop => rw [stop] at read; cases read
          | unreadable error stop => rw [stop] at read; cases read
          | empty other stop zero =>
              rw [stop] at read
              cases read
              exact absurd zero size
      | record other otherRead _ otherRest =>
          rw [read] at otherRead
          cases otherRead
          rw [ih otherRest]

theorem cons_parts {record : Record} (read : Records bytes (record :: records)) :
    Header.fromSlice bytes = .ok (some record.header) ∧
      record.data = bytes.take record.header.recordSize ∧
      Records (bytes.drop record.header.recordSize) records := by
  cases read with
  | record header headerRead _ rest => exact ⟨headerRead, rfl, rest⟩

/-- A record that is cut short is the last one, so the data of the records
stand one after the other at the start of the bytes. -/
theorem leading (read : Records bytes records) :
    ∃ trailer, bytes = recordsToBytes records ++ trailer := by
  induction read with
  | stop _ => exact ⟨_, rfl⟩
  | @record bytes records header _ _ _ ih =>
      obtain ⟨trailer, rest⟩ := ih
      refine ⟨trailer, ?_⟩
      rw [records_to_bytes_cons, List.append_assoc, ← rest, List.take_append_drop]

theorem total_le (read : Records bytes records) : (recordsToBytes records).length ≤ bytes.length := by
  obtain ⟨trailer, rest⟩ := read.leading
  rw [rest, List.length_append]
  omega

theorem context_default (read : Records bytes records) :
    ∀ record ∈ records, record.context = {} := by
  induction read with
  | stop _ => simp
  | record header _ _ _ ih =>
      intro record member
      rcases List.mem_cons.mp member with rfl | later
      · rfl
      · exact ih record later

end Records

namespace Region

variable {bytes : List Byte}

/-- The loop appends what the walk finds at its cursor. The error of the walk
only surfaces while no record was read. -/
theorem from_slice_loop_spec (bytes : List Byte) (cursor : Nat) (before : List Record) :
    ∃ records, Records (bytes.drop cursor) records ∧
      (fromSliceLoop bytes cursor before = .ok (before ++ records) ∨
        before ++ records = [] ∧ ∃ error, fromSliceLoop bytes cursor before = .error error) := by
  fun_induction fromSliceLoop bytes cursor before with
  | case1 cursor before inside read =>
      exact ⟨[], .stop (.marker read), .inl (by simp)⟩
  | case2 cursor before inside error read none =>
      exact ⟨[], .stop (.unreadable error read), .inr ⟨by simpa using none, error, rfl⟩⟩
  | case3 cursor before inside error read some =>
      exact ⟨[], .stop (.unreadable error read), .inl (by simp)⟩
  | case4 cursor before inside header read recordSize empty =>
      exact ⟨[], .stop (.empty header read empty), .inl (by simp)⟩
  | case5 cursor before inside header read recordSize empty limit ih =>
      obtain ⟨records, rest, result⟩ := ih
      rw [← List.drop_drop] at rest
      have data : (bytes.drop cursor).take (limit - cursor) =
          (bytes.drop cursor).take header.recordSize := by
        rw [List.take_eq_take_iff, List.length_drop]
        omega
      refine ⟨_, .record header read empty rest, ?_⟩
      rw [← data]
      simpa using result
  | case6 cursor before inside =>
      have behind : bytes.drop cursor = [] := List.drop_eq_nil_of_le (by omega)
      exact ⟨[], by rw [behind]; exact .stop stops_nil, .inl (by simp)⟩

theorem from_slice_eq_ok_iff {region : Region} :
    fromSlice bytes = .ok region ↔ Records bytes region.records ∧ region.records ≠ [] := by
  obtain ⟨records, read, result⟩ := from_slice_loop_spec bytes 0 []
  simp only [List.drop_zero, List.nil_append] at read result
  rcases result with loop | ⟨none, error, loop⟩
  · simp only [fromSlice, loop, Bind.bind, Except.bind]
    cases records with
    | nil =>
        simp only [List.isEmpty_nil, if_true, reduceCtorEq, false_iff, not_and, not_not]
        exact fun other => other.unique read
    | cons record rest =>
        simp only [List.isEmpty_cons, Bool.false_eq_true, if_false, Except.ok.injEq]
        constructor
        · rintro rfl
          exact ⟨read, List.cons_ne_nil _ _⟩
        · rintro ⟨other, _⟩
          cases region
          rw [read.unique other]
  · subst none
    simp only [fromSlice, loop, Bind.bind, Except.bind, reduceCtorEq, false_iff, not_and, not_not]
    exact fun other => other.unique read

end Region

/-! ## Reading a region again -/

/-- Every header lies inside the bytes of its own record and of those behind it. -/
def HeadersFit : List Record → Prop
  | [] => True
  | record :: rest =>
      record.header.headerSize ≤ (recordsToBytes (record :: rest)).length ∧ HeadersFit rest

instance HeadersFit.decidable : (records : List Record) → Decidable (HeadersFit records)
  | [] => .isTrue trivial
  | _ :: rest =>
      have : Decidable (HeadersFit rest) := HeadersFit.decidable rest
      inferInstanceAs (Decidable (_ ∧ _))

theorem headers_fit_of_each {records : List Record}
    (each : ∀ record ∈ records, record.header.headerSize ≤ record.data.length) :
    HeadersFit records := by
  induction records with
  | nil => trivial
  | cons record rest ih =>
      refine ⟨?_, ih fun other member => each other (by simp [member])⟩
      have own := each record (by simp)
      rw [records_to_bytes_cons, List.length_append]
      omega

namespace Records

variable {bytes : List Byte} {records : List Record}

/-- The bytes behind the first record of the joined data are the data of the others. -/
theorem joined_drop (header : Header) (rest : Records (bytes.drop header.recordSize) records) :
    (bytes.take header.recordSize ++ recordsToBytes records).drop header.recordSize =
      recordsToBytes records := by
  by_cases whole : header.recordSize ≤ bytes.length
  · rw [List.drop_append_of_le_length (by simp [whole]), List.drop_eq_nil_of_le (by simp),
      List.nil_append]
  · have empty : recordsToBytes records = [] := by
      have bound := rest.total_le
      rw [List.length_drop] at bound
      exact List.eq_nil_of_length_eq_zero (by omega)
    rw [empty, List.append_nil]
    exact List.drop_eq_nil_of_le (by simp)

theorem joined_take (header : Header) (rest : Records (bytes.drop header.recordSize) records) :
    (bytes.take header.recordSize ++ recordsToBytes records).take header.recordSize =
      bytes.take header.recordSize := by
  by_cases whole : header.recordSize ≤ bytes.length
  · rw [List.take_append_of_le_length (by simp [whole]), List.take_take, Nat.min_self]
  · have empty : recordsToBytes records = [] := by
      have bound := rest.total_le
      rw [List.length_drop] at bound
      exact List.eq_nil_of_length_eq_zero (by omega)
    rw [empty, List.append_nil, List.take_take, Nat.min_self]

theorem reread (read : Records bytes records) (fit : HeadersFit records) :
    Records (recordsToBytes records) records := by
  induction read with
  | stop _ => exact .stop stops_nil
  | @record bytes records header headerRead size rest ih =>
      obtain ⟨own, others⟩ := fit
      obtain ⟨trailer, split⟩ := (Records.record header headerRead size rest).leading
      have agree := (SamePrefix.append own trailer).symm
      rw [← split] at agree
      have headerAgain := Header.from_slice_own_bytes headerRead agree
      rw [records_to_bytes_cons] at headerAgain ⊢
      have behind : Records ((bytes.take header.recordSize ++ recordsToBytes records).drop
          header.recordSize) records := by
        rw [rest.joined_drop header]
        exact ih others
      have again := Records.record header headerAgain size behind
      rwa [rest.joined_take header] at again

/-- Conversely a header that is read again lies inside the bytes it is read from. -/
theorem fit_of_reread (read : Records bytes records)
    (again : Records (recordsToBytes records) records) : HeadersFit records := by
  induction read with
  | stop _ => trivial
  | @record bytes records header _ _ rest ih =>
      obtain ⟨headerAgain, _, restAgain⟩ := again.cons_parts
      refine ⟨Header.from_slice_size headerAgain, ih ?_⟩
      rwa [records_to_bytes_cons, rest.joined_drop header] at restAgain

end Records

/-- The header of a machine check record without optional fields. -/
def mcaHeader (dwords : UInt16) : Header where
  version := { revision := 8, headerType := 1, productId := 0x7a, recordType := RecordTypes.MCA }
  size := { recordSize := dwords }

namespace Region

/-- An accepted region is read again from its own bytes exactly when every
header fits. The parser deliberately keeps records that are shorter than
their header, and the bytes such a header was read from may be gone. -/
theorem accepted_region_reread_iff (bytes : List Byte) (region : Region)
    (accepted : fromSlice bytes = .ok region) :
    (∃ again, fromSlice region.toBytes = .ok again ∧ again.records = region.records) ↔
      HeadersFit region.records := by
  obtain ⟨read, nonempty⟩ := from_slice_eq_ok_iff.mp accepted
  constructor
  · rintro ⟨again, reread, same⟩
    obtain ⟨walk, _⟩ := from_slice_eq_ok_iff.mp reread
    rw [same] at walk
    exact read.fit_of_reread walk
  · intro fit
    exact ⟨region, from_slice_eq_ok_iff.mpr ⟨read.reread fit, nonempty⟩, rfl⟩

/-- Two machine check records of two and three dwords. -/
def twoRecords : List Record :=
  [{ header := mcaHeader 2, data := [0x08, 0xa1, 0x07, 0x3e, 2, 0, 0, 0] },
    { header := mcaHeader 3, data := [0x08, 0xa1, 0x07, 0x3e, 3, 0, 0, 0, 1, 2, 3, 4] }]

theorem mca_region_reread :
    ∃ again, fromSlice (recordsToBytes twoRecords) = .ok again ∧ again.records = twoRecords :=
  (accepted_region_reread_iff (recordsToBytes twoRecords) ⟨twoRecords⟩ (by decide +kernel)).mpr
    (by decide +kernel)

/-- A Box record of one dword is accepted, and its second dword is not part of
its data: four bytes remain, too few for any header. -/
theorem short_box_record_not_reread :
    ¬ ∀ (bytes : List Byte) (region : Region), fromSlice bytes = .ok region →
      ∃ again, fromSlice region.toBytes = .ok again ∧ again.records = region.records := by
  intro rereads
  have accepted : fromSlice [0x0, 0x0, 0x0, 0x3d, 0x1, 0x0, 0x0, 0x0, 0x0, 0xa] = .ok
      { records := [{
        header := { version := { recordType := 0x3d }, size := { recordSize := 1 }, headerType := .type0 }
        data := [0x0, 0x0, 0x0, 0x3d] }] } := by decide +kernel
  obtain ⟨again, reread, _⟩ := rereads _ _ accepted
  have refused : fromSlice [0x0, 0x0, 0x0, 0x3d] = .error .invalidHeader := by decide +kernel
  change fromSlice [0x0, 0x0, 0x0, 0x3d] = .ok again at reread
  rw [refused] at reread
  cases reread

/-! ## Regions built by concatenation -/

theorem records_of_blocks (blocks : List (Header × List Byte)) (trailer : List Byte)
    (complete : ∀ block ∈ blocks, Header.fromSlice block.2 = .ok (some block.1) ∧
      block.1.recordSize = block.2.length ∧ block.1.headerSize ≤ block.2.length)
    (stops : Stops trailer) :
    Records ((blocks.map Prod.snd).flatten ++ trailer)
      (blocks.map fun block => { header := block.1, data := block.2 }) := by
  induction blocks with
  | nil => exact .stop stops
  | cons block rest ih =>
      obtain ⟨read, size, fits⟩ := complete block (by simp)
      have positive := block.1.size_ge
      have others := ih fun other member => complete other (by simp [member])
      simp only [List.map_cons, List.flatten_cons, List.append_assoc]
      have first := Header.from_slice_append read ((rest.map Prod.snd).flatten ++ trailer)
      have behind : (block.2 ++ ((rest.map Prod.snd).flatten ++ trailer)).drop block.1.recordSize =
          (rest.map Prod.snd).flatten ++ trailer := by
        rw [size, List.drop_left]
      rw [← behind] at others
      have walk := Records.record block.1 first (by omega) others
      rwa [size, List.take_left] at walk

/-- Complete records that stand one after the other are read back exactly,
whatever stops the walk behind them. -/
theorem region_of_concatenated_records (blocks : List (Header × List Byte)) (trailer : List Byte)
    (nonempty : blocks ≠ [])
    (complete : ∀ block ∈ blocks, Header.fromSlice block.2 = .ok (some block.1) ∧
      block.1.recordSize = block.2.length ∧ block.1.headerSize ≤ block.2.length)
    (stops : trailer = [] ∨ Header.fromSlice trailer = .ok none ∨
      (∃ error, Header.fromSlice trailer = .error error) ∨
      ∃ header, Header.fromSlice trailer = .ok (some header) ∧ header.recordSize = 0) :
    fromSlice ((blocks.map Prod.snd).flatten ++ trailer) =
      .ok { records := blocks.map fun block => { header := block.1, data := block.2 } } := by
  rw [from_slice_eq_ok_iff]
  refine ⟨records_of_blocks blocks trailer complete ?_, by simpa using nonempty⟩
  rcases stops with rfl | marker | ⟨error, unreadable⟩ | ⟨header, read, empty⟩
  · exact stops_nil
  · exact .marker marker
  · exact .unreadable error unreadable
  · exact .empty header read empty

theorem region_of_two_records :
    fromSlice [0x08, 0xa1, 0x07, 0x3e, 2, 0, 0, 0, 0x08, 0xa1, 0x07, 0x3e, 3, 0, 0, 0, 1, 2, 3, 4, 0] =
      .ok { records := [
        { header := mcaHeader 2, data := [0x08, 0xa1, 0x07, 0x3e, 2, 0, 0, 0] },
        { header := mcaHeader 3, data := [0x08, 0xa1, 0x07, 0x3e, 3, 0, 0, 0, 1, 2, 3, 4] }] } :=
  region_of_concatenated_records
    [(mcaHeader 2, [0x08, 0xa1, 0x07, 0x3e, 2, 0, 0, 0]),
      (mcaHeader 3, [0x08, 0xa1, 0x07, 0x3e, 3, 0, 0, 0, 1, 2, 3, 4])]
    [0] (by decide) (by decide +kernel) (.inr (.inl (by decide +kernel)))

end Region

end Crashlog
