import Crashlog.Section

/-!
# The CPER container

A record header, a table of section descriptors and the section bodies. Every
append normalizes the whole container, and `Normalized` is the invariant that
holds from then on. The encoder emits table and bodies in two passes; under
the invariant both describe the same layout, which is what the parser needs.
-/

namespace Crashlog

open Bytes

structure Cper where
  recordHeader : CperHeader := {}
  sections : List CperSection := []
  deriving DecidableEq, Repr

namespace CperSection

/-- The loop body of `normalize`: the section moves to the cursor. -/
def place (self : CperSection) (cursor : Nat) : CperSection :=
  { self with
    descriptor := { self.descriptor with sectionOffset := UInt32.ofNat cursor }.normalize }

/-- The length announced by the descriptor. -/
def width (self : CperSection) : Nat := self.descriptor.sectionLength.toNat

end CperSection

namespace Cper

def placeSections (cursor : Nat) : List CperSection → List CperSection × Nat
  | [] => ([], cursor)
  | head :: rest =>
      let (placed, stop) := placeSections (cursor + head.width) rest
      (head.place cursor :: placed, stop)

/-- The offset of the first section body. -/
def bodyStart (count : Nat) : Nat := RECORD_HEADER_SIZE + SECTION_DESCRIPTOR_SIZE * count

def normalize (cper : Cper) : Cper :=
  let (sections, cursor) := placeSections (bodyStart cper.sections.length) cper.sections
  { recordHeader := { cper.recordHeader with
      sectionCount := UInt16.ofNat cper.sections.length
      recordLength := UInt32.ofNat cursor }.normalize
    sections }

/-- A section that cannot be read is dropped. -/
def readSection (bytes : List Byte) (i : Nat) : Option CperSection := do
  let index := RECORD_HEADER_SIZE + i * SECTION_DESCRIPTOR_SIZE
  let descriptor ← (sliceFrom bytes index).bind CperSectionDescriptor.fromSlice
  let offset := descriptor.sectionOffset.toNat
  let endOffset := offset + descriptor.sectionLength.toNat
  let body ← (slice bytes offset endOffset).bind
    (CperSectionBody.fromSlice descriptor.sectionType)
  some { descriptor, body }

def fromSlice (bytes : List Byte) : Option Cper := do
  let recordHeader ← (slice bytes 0 RECORD_HEADER_SIZE).bind CperHeader.fromSlice
  let sections := (List.range recordHeader.sectionCount.toNat).filterMap (readSection bytes)
  some (normalize { recordHeader, sections })

def appendSection (cper : Cper) (added : CperSection) : Cper :=
  normalize { cper with sections := cper.sections ++ [added] }

def toBytes (cper : Cper) : List Byte :=
  cper.recordHeader.toBytes ++
    ((cper.sections.map fun item => item.descriptor.toBytes).flatten ++
      (cper.sections.map CperSection.bodyBytes).flatten)

/-! ## Normalized containers -/

def bodiesWidth (sections : List CperSection) : Nat := (sections.map CperSection.width).sum

/-- The number of bytes of the whole container. -/
def totalLength (cper : Cper) : Nat := bodyStart cper.sections.length + bodiesWidth cper.sections

def Normalized (cper : Cper) : Prop := cper.normalize = cper

@[simp] theorem place_width (item : CperSection) (cursor : Nat) : (item.place cursor).width = item.width :=
  rfl

@[simp] theorem place_place (item : CperSection) (first second : Nat) :
    (item.place first).place second = item.place second := rfl

theorem place_sections_stop (cursor : Nat) (sections : List CperSection) :
    (placeSections cursor sections).2 = cursor + bodiesWidth sections := by
  induction sections generalizing cursor with
  | nil => rfl
  | cons head rest ih =>
      simp only [placeSections, ih, bodiesWidth, List.map_cons, List.sum_cons]
      omega

@[simp] theorem place_sections_length (cursor : Nat) (sections : List CperSection) :
    (placeSections cursor sections).1.length = sections.length := by
  induction sections generalizing cursor with
  | nil => rfl
  | cons head rest ih => simp [placeSections, ih]

theorem place_sections_again (first second : Nat) (sections : List CperSection) :
    placeSections second (placeSections first sections).1 = placeSections second sections := by
  induction sections generalizing first second with
  | nil => rfl
  | cons head rest ih => simp [placeSections, ih]

/-- Placing changes offsets and mirrored bits, neither bodies nor their widths. -/
theorem place_sections_map {α : Type} (f : CperSection → α)
    (kept : ∀ item cursor, f (CperSection.place item cursor) = f item)
    (cursor : Nat) (sections : List CperSection) :
    (placeSections cursor sections).1.map f = sections.map f := by
  induction sections generalizing cursor with
  | nil => rfl
  | cons head rest ih => simp [placeSections, kept, ih]

/-- A placed section stands behind the bodies of the sections before it. -/
theorem place_sections_get (cursor : Nat) (before after : List CperSection) (item : CperSection) :
    (placeSections cursor (before ++ item :: after)).1[before.length]? =
      some (item.place (cursor + bodiesWidth before)) := by
  induction before generalizing cursor with
  | nil => simp [placeSections, bodiesWidth]
  | cons head rest ih =>
      simp only [List.cons_append, placeSections, List.length_cons, List.getElem?_cons_succ, ih,
        bodiesWidth, List.map_cons, List.sum_cons, Nat.add_assoc]

theorem normalize_normalized (cper : Cper) : cper.normalize.Normalized := by
  simp only [Normalized, normalize, place_sections_length, place_sections_again]
  rfl

theorem normalize_default : Normalized {} := by
  simp only [Normalized]
  decide +kernel

/-- Containers built by the code: a fresh one or a parsed one, then appends. -/
inductive Reachable : Cper → Prop where
  | default : Reachable {}
  | parsed {cper : Cper} (bytes : List Byte) (read : fromSlice bytes = some cper) : Reachable cper
  | append {cper : Cper} (built : Reachable cper) (added : CperSection) :
      Reachable (cper.appendSection added)

theorem Reachable.normalized {cper : Cper} (built : Reachable cper) : cper.Normalized := by
  cases built with
  | default => exact normalize_default
  | parsed bytes read =>
      simp only [fromSlice, Option.bind_eq_bind, Option.bind_eq_some_iff, Option.some.injEq] at read
      obtain ⟨recordHeader, _, rfl⟩ := read
      exact normalize_normalized _
  | append _ added => exact normalize_normalized _

/-! ## Layout -/

theorem split_at_index {α : Type} {items : List α} {i : Nat} {item : α}
    (found : items[i]? = some item) :
    ∃ before after, items = before ++ item :: after ∧ before.length = i := by
  obtain ⟨inside, rfl⟩ := List.getElem?_eq_some_iff.mp found
  refine ⟨items.take i, items.drop (i + 1), ?_, by simp; omega⟩
  rw [← List.drop_eq_getElem_cons inside, List.take_append_drop]

@[simp] theorem body_bytes_length (item : CperSection) : item.bodyBytes.length = item.width :=
  resize_length _ _

theorem bodies_length (sections : List CperSection) :
    (sections.map CperSection.bodyBytes).flatten.length = bodiesWidth sections := by
  simp [List.length_flatten, bodiesWidth, Function.comp_def]

theorem table_length (sections : List CperSection) :
    (sections.map fun item => item.descriptor.toBytes).flatten.length =
      SECTION_DESCRIPTOR_SIZE * sections.length := by
  induction sections with
  | nil => rfl
  | cons head rest ih =>
      simp only [List.map_cons, List.flatten_cons, List.length_append, List.length_cons, ih,
        CperSectionDescriptor.to_bytes_length, Nat.mul_add, Nat.mul_one]
      omega

theorem to_bytes_length (cper : Cper) : cper.toBytes.length = cper.totalLength := by
  simp only [toBytes, List.length_append, CperHeader.to_bytes_length, table_length, bodies_length,
    totalLength, bodyStart]
  omega

theorem bodies_width_append (before after : List CperSection) :
    bodiesWidth (before ++ after) = bodiesWidth before + bodiesWidth after := by
  simp [bodiesWidth]

namespace Normalized

variable {cper : Cper} {i : Nat} {item : CperSection}

theorem header_eq (normalized : cper.Normalized) :
    cper.recordHeader.sectionCount = UInt16.ofNat cper.sections.length ∧
      cper.recordHeader.recordLength = UInt32.ofNat cper.totalLength ∧
      cper.recordHeader.validationBits = cper.recordHeader.mirrorBits := by
  have header : cper.normalize.recordHeader = cper.recordHeader :=
    congrArg Cper.recordHeader normalized
  simp only [normalize, place_sections_stop] at header
  have count := congrArg CperHeader.sectionCount header
  have length := congrArg CperHeader.recordLength header
  have bits := congrArg CperHeader.validationBits header
  refine ⟨count.symm, length.symm, bits.symm.trans ?_⟩
  rfl

/-- Every section of a normalized container is where the cursor placed it. -/
theorem placed (normalized : cper.Normalized) {before after : List CperSection}
    (split : cper.sections = before ++ item :: after) :
    item.place (bodyStart cper.sections.length + bodiesWidth before) = item := by
  have sections : (placeSections (bodyStart cper.sections.length) cper.sections).1 = cper.sections :=
    congrArg Cper.sections normalized
  have found := place_sections_get (bodyStart cper.sections.length) before after item
  rw [← split, sections] at found
  have stored : cper.sections[before.length]? = some item := by simp [split]
  exact Option.some.inj (found.symm.trans stored)

theorem offset_eq (normalized : cper.Normalized) (fits : cper.totalLength < 2 ^ 32)
    {before after : List CperSection} (split : cper.sections = before ++ item :: after) :
    item.descriptor.sectionOffset.toNat = bodyStart cper.sections.length + bodiesWidth before := by
  have offset := congrArg (fun s => s.descriptor.sectionOffset.toNat) (normalized.placed split)
  simp only [CperSection.place, CperSectionDescriptor.normalize, UInt32.toNat_ofNat'] at offset
  have below : bodyStart cper.sections.length + bodiesWidth before ≤ cper.totalLength := by
    rw [totalLength, split, bodies_width_append]
    omega
  omega

theorem bits_eq (normalized : cper.Normalized) {before after : List CperSection}
    (split : cper.sections = before ++ item :: after) :
    item.descriptor.validationBits = item.descriptor.mirrorBits :=
  (congrArg (fun s => s.descriptor.validationBits) (normalized.placed split)).symm

theorem header_read (normalized : cper.Normalized) (rest : List Byte) :
    (slice (cper.toBytes ++ rest) 0 RECORD_HEADER_SIZE).bind CperHeader.fromSlice =
      some cper.recordHeader := by
  have mirrored := normalized.header_eq.2.2
  rw [toBytes, List.append_assoc, slice_head (CperHeader.to_bytes_length _), Option.bind_some]
  simpa using CperHeader.from_slice_to_bytes _ mirrored []

theorem descriptor_read (normalized : cper.Normalized) {before after : List CperSection}
    (split : cper.sections = before ++ item :: after) :
    (sliceFrom cper.toBytes (RECORD_HEADER_SIZE + before.length * SECTION_DESCRIPTOR_SIZE)).bind
      CperSectionDescriptor.fromSlice = some item.descriptor := by
  let table : List CperSection → List Byte := fun sections =>
    (sections.map fun item => item.descriptor.toBytes).flatten
  have chain : cper.toBytes = (cper.recordHeader.toBytes ++ table before) ++
      (item.descriptor.toBytes ++
        (table after ++ (cper.sections.map CperSection.bodyBytes).flatten)) := by
    simp only [toBytes, table, split, List.map_append, List.map_cons, List.flatten_append,
      List.flatten_cons, List.append_assoc]
  have ahead : (cper.recordHeader.toBytes ++ table before).length =
      RECORD_HEADER_SIZE + before.length * SECTION_DESCRIPTOR_SIZE := by
    rw [List.length_append, CperHeader.to_bytes_length, table_length, Nat.mul_comm]
  rw [chain, slice_from_head ahead, Option.bind_some]
  exact CperSectionDescriptor.from_slice_to_bytes _ (normalized.bits_eq split) _

theorem body_read (normalized : cper.Normalized) (fits : cper.totalLength < 2 ^ 32)
    {before after : List CperSection} (split : cper.sections = before ++ item :: after) :
    slice cper.toBytes item.descriptor.sectionOffset.toNat
      (item.descriptor.sectionOffset.toNat + item.descriptor.sectionLength.toNat) =
        some item.bodyBytes := by
  let bodies : List CperSection → List Byte := fun sections =>
    (sections.map CperSection.bodyBytes).flatten
  have chain : cper.toBytes = (cper.recordHeader.toBytes ++
      (cper.sections.map fun item => item.descriptor.toBytes).flatten ++ bodies before) ++
      (item.bodyBytes ++ bodies after) := by
    simp only [toBytes, bodies, split, List.map_append, List.map_cons, List.flatten_append,
      List.flatten_cons, List.append_assoc]
  rw [normalized.offset_eq fits split, chain]
  apply slice_middle
  · rw [List.length_append, List.length_append, CperHeader.to_bytes_length, table_length,
      bodies_length, bodyStart]
  · exact body_bytes_length item

end Normalized

/-- The container is laid out as its header and descriptors say. -/
structure LaidOut (cper : Cper) : Prop where
  length : cper.toBytes.length = cper.recordHeader.recordLength.toNat
  header : (slice cper.toBytes 0 RECORD_HEADER_SIZE).bind CperHeader.fromSlice =
    some cper.recordHeader
  count : cper.recordHeader.sectionCount.toNat = cper.sections.length
  descriptor : ∀ (i : Nat) (item : CperSection), cper.sections[i]? = some item →
    (sliceFrom cper.toBytes (128 + 72 * i)).bind CperSectionDescriptor.fromSlice =
      some item.descriptor
  body : ∀ (i : Nat) (item : CperSection), cper.sections[i]? = some item →
    slice cper.toBytes item.descriptor.sectionOffset.toNat
      (item.descriptor.sectionOffset.toNat + item.descriptor.sectionLength.toNat) =
        some item.bodyBytes
  first : ∀ item : CperSection, cper.sections.head? = some item →
    item.descriptor.sectionOffset.toNat = 128 + 72 * cper.sections.length
  consecutive : ∀ (i : Nat) (item next : CperSection),
    cper.sections[i]? = some item → cper.sections[i + 1]? = some next →
      next.descriptor.sectionOffset.toNat =
        item.descriptor.sectionOffset.toNat + item.descriptor.sectionLength.toNat
  disjoint : ∀ (i j : Nat) (item later : CperSection), i < j →
    cper.sections[i]? = some item → cper.sections[j]? = some later →
      item.descriptor.sectionOffset.toNat + item.descriptor.sectionLength.toNat ≤
        later.descriptor.sectionOffset.toNat
  last : ∀ item : CperSection, cper.sections.getLast? = some item →
    item.descriptor.sectionOffset.toNat + item.descriptor.sectionLength.toNat =
      cper.recordHeader.recordLength.toNat
  table_only : cper.sections = [] → cper.recordHeader.recordLength.toNat = 128

/-- The bodies before a later section hold everything up to the earlier one. -/
theorem bodies_width_take {sections : List CperSection} {i j : Nat} {item : CperSection}
    (order : i < j) (found : sections[i]? = some item) :
    bodiesWidth (sections.take i) + item.width ≤ bodiesWidth (sections.take j) := by
  obtain ⟨before, after, rfl, rfl⟩ := split_at_index found
  obtain ⟨more, rfl⟩ : ∃ more, j = before.length + (more + 1) := ⟨j - before.length - 1, by omega⟩
  rw [List.take_left, List.take_length_add_append, List.take_succ_cons, bodies_width_append,
    bodiesWidth, bodiesWidth, List.map_cons, List.sum_cons]
  omega

/-- A normalized container is read as it was laid out. -/
theorem Normalized.laid_out {cper : Cper} (normalized : cper.Normalized)
    (counted : cper.sections.length < 2 ^ 16) (fits : cper.totalLength < 2 ^ 32) : cper.LaidOut := by
  obtain ⟨count, length, _⟩ := normalized.header_eq
  have announced : cper.recordHeader.recordLength.toNat = cper.totalLength := by
    rw [length, UInt32.toNat_ofNat', Nat.mod_eq_of_lt fits]
  have offset : ∀ (i : Nat) (item : CperSection), cper.sections[i]? = some item →
      item.descriptor.sectionOffset.toNat =
        bodyStart cper.sections.length + bodiesWidth (cper.sections.take i) := by
    intro i item found
    obtain ⟨before, after, split, rfl⟩ := split_at_index found
    rw [normalized.offset_eq fits split, split, List.take_left]
  refine ⟨?_, ?_, ?_, ?_, ?_, ?_, ?_, ?_, ?_, ?_⟩
  · rw [to_bytes_length, announced]
  · simpa using normalized.header_read []
  · rw [count, UInt16.toNat_ofNat', Nat.mod_eq_of_lt counted]
  · intro i item found
    obtain ⟨before, after, split, rfl⟩ := split_at_index found
    rw [Nat.mul_comm]
    exact normalized.descriptor_read split
  · intro i item found
    obtain ⟨before, after, split, rfl⟩ := split_at_index found
    exact normalized.body_read fits split
  · intro item found
    rw [List.head?_eq_getElem?] at found
    exact offset 0 item found
  · intro i item next found nextFound
    obtain ⟨before, after, split, rfl⟩ := split_at_index found
    have upTo : cper.sections.take (before.length + 1) = before ++ [item] := by
      rw [split, List.take_length_add_append]
      rfl
    rw [offset _ _ found, offset _ _ nextFound, upTo, bodies_width_append, split, List.take_left]
    simp only [bodiesWidth, CperSection.width, List.map_cons, List.map_nil, List.sum_cons,
      List.sum_nil]
    omega
  · intro i j item later order found laterFound
    rw [offset _ _ found, offset _ _ laterFound]
    have inside := bodies_width_take order found
    simp only [CperSection.width] at inside
    omega
  · intro item found
    obtain ⟨before, split⟩ := List.getLast?_eq_some_iff.mp found
    rw [announced, @offset_eq _ _ normalized fits before [] split, totalLength, split,
      bodies_width_append]
    simp only [bodiesWidth, CperSection.width, List.map_cons, List.map_nil, List.sum_cons,
      List.sum_nil]
    omega
  · intro empty
    rw [announced, totalLength, empty]
    rfl

/-! ## Reading a container again -/

/-- The body found again under the descriptor of a section. -/
def reparse (item : CperSection) : Option CperSectionBody :=
  CperSectionBody.fromSlice item.descriptor.sectionType item.bodyBytes

@[simp] theorem reparse_place (item : CperSection) (cursor : Nat) :
    reparse (item.place cursor) = reparse item := rfl

theorem filter_map_range {α β : Type} (items : List α) (f : α → Option β) :
    ((List.range items.length).filterMap fun i => items[i]?.bind f) = items.filterMap f := by
  induction items with
  | nil => rfl
  | cons head rest ih =>
      rw [List.length_cons, List.range_succ_eq_map, List.filterMap_cons, List.filterMap_map,
        List.filterMap_cons]
      simp only [Function.comp_def, List.getElem?_cons_succ, List.getElem?_cons_zero,
        Option.bind_some, ih]

/-- A normalized container is parsed as its header and those of its sections
whose bodies can be parsed. -/
theorem Normalized.from_slice_to_bytes {cper : Cper} (normalized : cper.Normalized)
    (counted : cper.sections.length < 2 ^ 16) (fits : cper.totalLength < 2 ^ 32) :
    fromSlice cper.toBytes = some (normalize {
      recordHeader := cper.recordHeader
      sections := cper.sections.filterMap fun item =>
        (reparse item).map fun body => { descriptor := item.descriptor, body } }) := by
  have header := normalized.header_read []
  have count : cper.recordHeader.sectionCount.toNat = cper.sections.length := by
    rw [normalized.header_eq.1, UInt16.toNat_ofNat', Nat.mod_eq_of_lt counted]
  rw [List.append_nil] at header
  simp only [fromSlice, header, Option.bind_eq_bind, Option.bind_some, count]
  congr 3
  rw [← filter_map_range cper.sections]
  apply List.filterMap_congr
  intro i member
  have inside := List.mem_range.mp member
  obtain ⟨before, after, split, rfl⟩ :=
    split_at_index (List.getElem?_eq_getElem (l := cper.sections) inside)
  have found : cper.sections[before.length]? = some cper.sections[before.length] :=
    List.getElem?_eq_getElem inside
  simp only [readSection, Option.bind_eq_bind, normalized.descriptor_read split,
    normalized.body_read fits split, Option.bind_some, found, reparse]
  rw [Option.map_eq_bind]
  rfl

/-- The bodies of the container that was parsed. -/
def bodies (cper : Cper) : List CperSectionBody := cper.sections.map CperSection.body

theorem bodies_normalize (cper : Cper) : cper.normalize.bodies = cper.bodies := by
  simp only [bodies, normalize]
  exact place_sections_map _ (fun _ _ => rfl) _ _

theorem Normalized.bodies_reread {cper : Cper} (normalized : cper.Normalized)
    (counted : cper.sections.length < 2 ^ 16) (fits : cper.totalLength < 2 ^ 32) :
    (fromSlice cper.toBytes).map bodies = some (cper.sections.filterMap reparse) := by
  rw [normalized.from_slice_to_bytes counted fits, Option.map_some, bodies_normalize, bodies,
    List.map_filterMap]
  congr 2
  funext item
  cases reparse item <;> rfl

/-- Every parsed body comes from a slice whose length fits the descriptor field. -/
theorem bodies_provenance {bytes : List Byte} {cper : Cper} (read : fromSlice bytes = some cper)
    {body : CperSectionBody} (member : body ∈ cper.bodies) :
    ∃ guid s, s <:+: bytes ∧ s.length < 2 ^ 32 ∧ CperSectionBody.fromSlice guid s = some body := by
  simp only [fromSlice, Option.bind_eq_bind, Option.bind_eq_some_iff, Option.some.injEq] at read
  obtain ⟨recordHeader, _, rfl⟩ := read
  rw [bodies_normalize] at member
  obtain ⟨item, itemMember, rfl⟩ := List.mem_map.mp member
  obtain ⟨i, _, itemRead⟩ := List.mem_filterMap.mp itemMember
  simp only [readSection, Option.bind_eq_bind, Option.bind_eq_some_iff, Option.some.injEq] at itemRead
  obtain ⟨descriptor, _, body, ⟨s, cut, parsed⟩, rfl⟩ := itemRead
  refine ⟨_, s, slice_infix cut, ?_, parsed⟩
  have size := slice_length cut
  have bounded := descriptor.sectionLength.toNat_lt
  omega

/-! ## Appending -/

/-- What a run of appends leaves of each section. -/
theorem append_all_map {α : Type} (f : CperSection → α)
    (kept : ∀ item cursor, f (CperSection.place item cursor) = f item)
    (cper : Cper) (added : List CperSection) :
    (added.foldl appendSection cper).sections.map f = cper.sections.map f ++ added.map f := by
  induction added generalizing cper with
  | nil => simp
  | cons head rest ih =>
      rw [List.foldl_cons, ih]
      simp only [appendSection, normalize, place_sections_map f kept]
      simp

theorem append_all_normalized (cper : Cper) {added : List CperSection} (nonempty : added ≠ []) :
    (added.foldl appendSection cper).Normalized := by
  obtain ⟨before, last, rfl⟩ := List.eq_nil_or_concat added |>.resolve_left nonempty
  rw [List.concat_eq_append, List.foldl_append]
  exact normalize_normalized _

/-! ## Containers of the code -/

/-- Every container the code builds or parses, as long as its counters fit, and
as a release build writes it: a debug build asserts on the way that each body
has its length, which a Firmware Error Record older than revision 2 has not. -/
theorem reachable_cper_laid_out (cper : Cper) (built : Reachable cper)
    (counted : cper.sections.length < 2 ^ 16) (fits : cper.toBytes.length < 2 ^ 32) :
    cper.LaidOut :=
  built.normalized.laid_out counted (to_bytes_length cper ▸ fits)

/-- A container with one Firmware Error Record and one opaque section. -/
theorem reachable_cper_laid_out_two_sections :
    LaidOut ((({} : Cper).appendSection (.fromBody (.firmwareErrorRecord {
      header := { errorType := 2, revision := 2 }
      payload := [1, 2, 3] }))).appendSection (.fromBody (.unknown Guid.ZERO [4, 5]))) :=
  reachable_cper_laid_out _ (.append (.append .default _) _) (by decide +kernel) (by decide +kernel)

end Cper

end Crashlog
