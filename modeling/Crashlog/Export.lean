import Crashlog.CrashLog

/-!
# Export and import

An exported Crash Log is a CPER container with one section for each region,
boxed ones included, and one for each extra section. Importing it takes the
boxed regions out once more. The regions found in the container are those of
the Crash Log without their contexts, `stored_regions_of_export`.
-/

namespace Crashlog

open Bytes

/-! ## Regions without context -/

namespace Region

/-- The records as they are parsed, before the box they come from is known. -/
def strip (region : Region) : Region where
  records := region.records.map fun record => { record with context := {} }

@[simp] theorem strip_to_bytes (region : Region) : region.strip.toBytes = region.toBytes := by
  simp [strip, toBytes, Function.comp_def]

@[simp] theorem strip_set_child_context (region : Region) (header : Header) :
    (region.setChildContext header).strip = region.strip := by
  simp [strip, setChildContext, Function.comp_def]

theorem boxed_regions_strip (region : Region) : boxedRegions region.strip = boxedRegions region := by
  simp only [boxedRegions, strip, List.filterMap_map]
  rfl

theorem strip_parsed {bytes : List Byte} {region : Region} (read : fromSlice bytes = .ok region) :
    region.strip = region := by
  obtain ⟨walk, _⟩ := from_slice_eq_ok_iff.mp read
  have same : region.strip.records = region.records := by
    simp only [strip]
    conv_rhs => rw [← List.map_id region.records]
    apply List.map_congr_left
    intro record member
    have default := walk.context_default record member
    cases record
    cases default
    rfl
  cases region
  simpa [strip] using same

/-- Up to contexts, the region was parsed from some bytes. -/
def Parsed (region : Region) : Prop := ∃ bytes, fromSlice bytes = .ok region.strip

theorem Parsed.of_from_slice {bytes : List Byte} {region : Region}
    (read : fromSlice bytes = .ok region) : region.Parsed :=
  ⟨bytes, by rw [strip_parsed read, read]⟩

theorem Parsed.child {region child : Region} (member : child ∈ boxedRegions region) : child.Parsed := by
  obtain ⟨record, _, boxed⟩ := List.mem_filterMap.mp member
  obtain ⟨_, payload, inner, _, read, rfl⟩ := boxed_region_eq_some_iff.mp boxed
  refine ⟨payload, ?_⟩
  rw [strip_set_child_context, strip_parsed read, read]

theorem Parsed.reread {region : Region} (parsed : region.Parsed)
    (complete : ∀ record ∈ region.records, record.header.headerSize ≤ record.data.length) :
    fromSlice region.toBytes = .ok region.strip := by
  obtain ⟨bytes, read⟩ := parsed
  obtain ⟨walk, nonempty⟩ := from_slice_eq_ok_iff.mp read
  have fit : HeadersFit region.strip.records := by
    apply headers_fit_of_each
    intro record member
    obtain ⟨original, originalMember, rfl⟩ := List.mem_map.mp member
    exact complete original originalMember
  rw [← strip_to_bytes]
  exact from_slice_eq_ok_iff.mpr ⟨walk.reread fit, nonempty⟩

end Region

/-! ## Exported sections -/

/-- A body the encoder sizes right is written as it is. -/
theorem from_body_exported (body : CperSectionBody) (sized : body.EncodedAsSized)
    (fits : body.len < 2 ^ 32) : (CperSection.fromBody body).bodyBytes = body.toBytes := by
  change resize body.toBytes (UInt32.ofNat body.len).toNat = body.toBytes
  rw [resize_eq_self_iff, UInt32.toNat_ofNat', Nat.mod_eq_of_lt fits,
    (CperSectionBody.to_bytes_length_iff body).mpr sized]

theorem region_section_reparse {region : Region} (fits : 32 + region.toBytes.length < 2 ^ 32) :
    Cper.reparse (Cper.regionSection region) =
      some (.firmwareErrorRecord (FirmwareErrorRecord.fromCrashlogRegion region)) := by
  have exported := from_body_exported
    (.firmwareErrorRecord (FirmwareErrorRecord.fromCrashlogRegion region)) (by change (2 : UInt8) ≥ 2; decide) fits
  change CperSectionBody.fromSlice FW_ERROR_RECORD _ = _
  rw [show (Cper.regionSection region).bodyBytes = _ from exported]
  exact CperSectionBody.recent_record_from_slice (by change (2 : UInt8) ≥ 2; decide)

/-- Exporting a firmware error record keeps its revision byte, also where the
descriptor cuts the body. -/
theorem exported_revision (fer : FirmwareErrorRecord)
    (fits : (CperSectionBody.firmwareErrorRecord fer).len < 2 ^ 32) :
    readU8 (CperSection.fromBody (.firmwareErrorRecord fer)).bodyBytes 1 = some fer.header.revision := by
  have size : 16 ≤ (CperSection.fromBody (.firmwareErrorRecord fer)).descriptor.sectionLength.toNat := by
    change 16 ≤ (UInt32.ofNat (CperSectionBody.firmwareErrorRecord fer).len).toNat
    rw [UInt32.toNat_ofNat', Nat.mod_eq_of_lt fits]
    exact (FirmwareErrorRecordHeader.len_ge_sixteen fer.header).trans (Nat.le_add_right _ _)
  have written : 32 ≤ (CperSectionBody.firmwareErrorRecord fer).toBytes.length := by
    change 32 ≤ fer.toBytes.length
    rw [FirmwareErrorRecord.to_bytes_length]
    omega
  unfold CperSection.bodyBytes resize readU8
  rw [List.getElem?_append_left, List.getElem?_take_of_lt (by omega)]
  · rfl
  · rw [List.length_take]
    change 1 < min _ (CperSectionBody.firmwareErrorRecord fer).toBytes.length
    omega

/-- A parsed section without a region is exported as a section without one,
also when its header is cut. -/
theorem extra_section_reparse {guid : Guid} {s : List Byte} {body again : CperSectionBody}
    (parsed : CperSectionBody.fromSlice guid s = some body) (bounded : s.length < 2 ^ 32)
    (regionless : Region.fromCperSection body = none)
    (reparsed : Cper.reparse (CperSection.fromBody body) = some again) :
    Region.fromCperSection again = none := by
  have len := CperSectionBody.len_eq_of_from_slice parsed
  unfold CperSectionBody.fromSlice at parsed
  split_ifs at parsed with isFer
  · obtain ⟨fer, ferParsed, rfl⟩ := Option.map_eq_some_iff.mp parsed
    by_cases recent : fer.header.revision ≥ 2
    · have exported := from_body_exported (.firmwareErrorRecord fer) recent (by omega)
      have same : Cper.reparse (CperSection.fromBody (.firmwareErrorRecord fer)) =
          some (.firmwareErrorRecord fer) := by
        change CperSectionBody.fromSlice FW_ERROR_RECORD _ = _
        rw [exported]
        exact CperSectionBody.recent_record_from_slice recent
      rw [same] at reparsed
      cases reparsed
      exact regionless
    · -- The revision byte survives the cut, and an old header has no GUID.
      change CperSectionBody.fromSlice FW_ERROR_RECORD _ = _ at reparsed
      rw [CperSectionBody.fromSlice, if_pos rfl] at reparsed
      obtain ⟨cut, cutParsed, rfl⟩ := Option.map_eq_some_iff.mp reparsed
      have cutHeader := (FirmwareErrorRecord.from_slice_eq_some_iff.mp cutParsed).1
      obtain ⟨revision, zero⟩ := FirmwareErrorRecordHeader.from_slice_parts cutHeader
      have kept := exported_revision fer (by omega)
      rw [kept, Option.some.injEq] at revision
      have noGuid := zero (by rwa [← revision])
      simp only [Region.fromCperSection, noGuid]
      rfl
  · cases parsed
    change CperSectionBody.fromSlice guid _ = _ at reparsed
    rw [CperSectionBody.fromSlice, if_neg isFer] at reparsed
    cases reparsed
    rfl

/-- A region found in a section is at least a header shorter than the section. -/
theorem cper_region_size {guid : Guid} {s : List Byte} {body : CperSectionBody} {region : Region}
    (parsed : CperSectionBody.fromSlice guid s = some body)
    (found : Region.fromCperSection body = some region) : 32 + region.toBytes.length ≤ s.length := by
  have len := CperSectionBody.len_eq_of_from_slice parsed
  unfold CperSectionBody.fromSlice at parsed
  split_ifs at parsed
  · obtain ⟨fer, ferParsed, rfl⟩ := Option.map_eq_some_iff.mp parsed
    simp only [Region.fromCperSection] at found
    split_ifs at found with isCrashlog
    have read := except_to_option_eq_some.mp found
    have total := (Region.from_slice_eq_ok_iff.mp read).1.total_le
    have header := (FirmwareErrorRecord.from_slice_eq_some_iff.mp ferParsed).1
    have recent : fer.header.revision ≥ 2 := by
      by_contra old
      have zero := (FirmwareErrorRecordHeader.from_slice_parts header).2 old
      rw [isCrashlog] at zero
      exact absurd zero (by decide)
    have size : fer.header.len = 32 := by
      simp [FirmwareErrorRecordHeader.len, recent, Fer.HEADER_REV2_SIZE]
    simp only [CperSectionBody.len, size] at len
    change 32 + (recordsToBytes region.records).length ≤ _
    omega
  · cases parsed
    cases found

/-! ## The regions of a container -/

/-- The regions stored in the input, before boxed regions are taken out. -/
def storedRegions (s : List Byte) : List Region :=
  match Berr.fromBertFile s with
  | some berr => berr.entries.filterMap fun entry => Region.fromCperSection entry.cperSection
  | none =>
      match Cper.fromSlice s with
      | some cper => cper.bodies.filterMap Region.fromCperSection
      | none => (Region.fromSlice s).toOption.toList

/-- The section bodies of the CPER record in the bytes, if they are one. -/
def cperBodies (binary : List Byte) : List CperSectionBody :=
  match Berr.fromBertFile binary with
  | some _ => []
  | none => ((Cper.fromSlice binary).map Cper.bodies).getD []

theorem mem_cper_bodies {s : List Byte} {body : CperSectionBody} :
    body ∈ cperBodies s ↔
      Berr.fromBertFile s = none ∧ ∃ cper, Cper.fromSlice s = some cper ∧ body ∈ cper.bodies := by
  unfold cperBodies
  cases Berr.fromBertFile s with
  | some berr => simp
  | none => cases Cper.fromSlice s <;> simp

namespace CrashLog

theorem sort_sections_eq (sections : List CperSection) (sorted : List Region × List CperSectionBody) :
    sections.foldl sortSection sorted =
      (sorted.1 ++ (sections.map CperSection.body).filterMap Region.fromCperSection,
        sorted.2 ++ (sections.map CperSection.body).filter fun body =>
          (Region.fromCperSection body).isNone) := by
  induction sections generalizing sorted with
  | nil => simp
  | cons head rest ih =>
      rw [List.foldl_cons, ih]
      cases found : Region.fromCperSection head.body <;> simp [sortSection, found]

theorem from_cper_eq (cper : Cper) :
    fromCper cper =
      let regions := cper.bodies.filterMap Region.fromCperSection
      if regions = [] then .error .noCrashLogFound
      else .ok {
        regions := boxExpansion.run regions
        metadata := {
          extraCperSections := cper.bodies.filter fun body => (Region.fromCperSection body).isNone } } := by
  have bodies : cper.sections.map CperSection.body = cper.bodies := rfl
  simp only [fromCper, sort_sections_eq, List.nil_append, List.isEmpty_iff, from_regions_eq, bodies]
  split_ifs with none
  · rfl
  · rfl

/-- The regions of a Crash Log are the stored ones with the boxed ones taken out. -/
theorem from_slice_regions_iff {s : List Byte} {regions : List Region} :
    (∃ crashlog, fromSlice s = .ok crashlog ∧ crashlog.regions = regions) ↔
      storedRegions s ≠ [] ∧ boxExpansion.run (storedRegions s) = regions := by
  have chosen : ∀ (stored : List Region) (error : Error) (metadata : Metadata),
      (∃ crashlog : CrashLog, (if stored = [] then Except.error error else
        .ok { regions := boxExpansion.run stored, metadata := metadata }) = .ok crashlog ∧
          crashlog.regions = regions) ↔
        stored ≠ [] ∧ boxExpansion.run stored = regions := by
    intro stored error metadata
    split_ifs with none <;> simp [none]
  unfold fromSlice storedRegions
  cases Berr.fromBertFile s with
  | some berr => simpa only [fromBerr, from_regions_eq] using chosen _ _ _
  | none =>
      cases Cper.fromSlice s with
      | some cper => simpa only [from_cper_eq] using chosen _ _ _
      | none =>
          cases Region.fromSlice s with
          | error error => simp [Except.toOption, Bind.bind, Except.bind]
          | ok region =>
              simpa only [from_regions_eq, Except.toOption, Bind.bind, Except.bind,
                Option.toList] using chosen [region] _ _

/-- Equal stored regions are expanded into equal regions. -/
theorem regions_of_stored {s t : List Byte} (same : storedRegions s = storedRegions t) :
    (fromSlice s).toOption.map CrashLog.regions = (fromSlice t).toOption.map CrashLog.regions := by
  have found (u : List Byte) (regions : List Region) :
      (fromSlice u).toOption.map CrashLog.regions = some regions ↔
        storedRegions u ≠ [] ∧ boxExpansion.run (storedRegions u) = regions := by
    rw [← from_slice_regions_iff, Option.map_eq_some_iff]
    simp only [except_to_option_eq_some]
  apply Option.ext
  intro regions
  rw [found, found, same]

theorem stored_region_parsed {s : List Byte} {region : Region} (stored : region ∈ storedRegions s) :
    ∃ bytes, Region.fromSlice bytes = .ok region := by
  have ofBody : ∀ body, Region.fromCperSection body = some region →
      ∃ bytes, Region.fromSlice bytes = .ok region := by
    intro body found
    cases body with
    | unknown guid data => cases found
    | firmwareErrorRecord fer =>
        simp only [Region.fromCperSection] at found
        split_ifs at found
        exact ⟨_, except_to_option_eq_some.mp found⟩
  unfold storedRegions at stored
  split at stored
  · obtain ⟨entry, _, found⟩ := List.mem_filterMap.mp stored
    exact ofBody _ found
  · split at stored
    · obtain ⟨body, _, found⟩ := List.mem_filterMap.mp stored
      exact ofBody _ found
    · exact ⟨s, except_to_option_eq_some.mp (Option.mem_toList.mp stored)⟩

theorem regions_parsed {s : List Byte} :
    ∀ region ∈ boxExpansion.run (storedRegions s), region.Parsed := by
  apply boxExpansion.run_induction Region.Parsed
  · intro region stored
    obtain ⟨bytes, read⟩ := stored_region_parsed stored
    exact .of_from_slice read
  · intro region _ child member
    exact .child (List.mem_reverse.mp member)

/-- An import has no metadata but the extra sections. -/
theorem from_slice_metadata {binary : List Byte} {crashlog : CrashLog}
    (read : fromSlice binary = .ok crashlog) :
    crashlog.metadata = {
      extraCperSections := (cperBodies binary).filter fun body => (Region.fromCperSection body).isNone } := by
  have plain : ∀ regions, fromRegions regions = .ok crashlog → crashlog.metadata = {} := by
    intro regions built
    rw [from_regions_eq] at built
    split_ifs at built
    cases built
    rfl
  unfold fromSlice at read
  unfold cperBodies
  cases bert : Berr.fromBertFile binary with
  | some berr =>
      rw [bert] at read
      exact plain _ read
  | none =>
      rw [bert] at read
      cases cper : Cper.fromSlice binary with
      | some cper =>
          simp only [cper, from_cper_eq] at read
          split_ifs at read
          cases read
          rfl
      | none =>
          rw [cper] at read
          obtain ⟨region, _, built⟩ := except_bind_eq_ok.mp read
          exact plain _ built

/-- The extra sections come from a container and carry no region. -/
theorem extra_section_provenance {s : List Byte} {crashlog : CrashLog}
    (read : fromSlice s = .ok crashlog) {body : CperSectionBody}
    (member : body ∈ crashlog.metadata.extraCperSections) :
    Region.fromCperSection body = none ∧
      ∃ guid bytes, bytes.length < 2 ^ 32 ∧ CperSectionBody.fromSlice guid bytes = some body := by
  rw [from_slice_metadata read] at member
  obtain ⟨inContainer, regionless⟩ := List.mem_filter.mp member
  obtain ⟨_, cper, cperRead, inside⟩ := mem_cper_bodies.mp inContainer
  obtain ⟨guid, bytes, _, fits, parsed⟩ := Cper.bodies_provenance cperRead inside
  exact ⟨by simpa using regionless, guid, bytes, fits, parsed⟩

/-! ## What an export holds -/

/-- The sections of the exported container, before they are placed. -/
def exportedSections (crashlog : CrashLog) : List CperSection :=
  crashlog.regions.map Cper.regionSection ++
    crashlog.metadata.extraCperSections.map CperSection.fromBody

theorem raw_crashlog_normalized {crashlog : CrashLog} (nonempty : crashlog.exportedSections ≠ []) :
    (Cper.fromRawCrashlog crashlog).Normalized := by
  unfold Cper.fromRawCrashlog
  simp only [← List.foldl_append]
  exact Cper.append_all_normalized _ nonempty

theorem raw_crashlog_map {α : Type} (f : CperSection → α)
    (kept : ∀ item cursor, f (CperSection.place item cursor) = f item) (crashlog : CrashLog) :
    (Cper.fromRawCrashlog crashlog).sections.map f = crashlog.exportedSections.map f := by
  unfold Cper.fromRawCrashlog
  simp only [← List.foldl_append]
  rw [Cper.append_all_map f kept]
  rfl

theorem export_is_not_bert (cper : Cper) : Berr.fromBertFile cper.toBytes = none := by
  simp [Berr.fromBertFile, Cper.toBytes, CperHeader.toBytes, CPER_SIGNATURE]

/-- What importing an export finds, whatever the descriptors announce. -/
theorem export_reread {crashlog : CrashLog} (nonempty : crashlog.exportedSections ≠ [])
    (counted : crashlog.exportedSections.length < 2 ^ 16) (fits : crashlog.toBytes.length < 2 ^ 32) :
    (Cper.fromSlice crashlog.toBytes).map Cper.bodies =
      some (crashlog.exportedSections.filterMap Cper.reparse) := by
  have normalized := raw_crashlog_normalized nonempty
  have sections := congrArg List.length
    (raw_crashlog_map (fun _ => ()) (fun _ _ => rfl) crashlog)
  simp only [List.length_map] at sections
  have bodies : (Cper.fromRawCrashlog crashlog).sections.filterMap Cper.reparse =
      crashlog.exportedSections.filterMap Cper.reparse := by
    have reparsed := raw_crashlog_map Cper.reparse (fun _ _ => rfl) crashlog
    simpa [List.filterMap_map] using congrArg (List.filterMap id) reparsed
  rw [← bodies]
  exact normalized.bodies_reread (sections ▸ counted) (Cper.to_bytes_length _ ▸ fits)

theorem stored_regions_of_reread {crashlog : CrashLog} (nonempty : crashlog.exportedSections ≠ [])
    (counted : crashlog.exportedSections.length < 2 ^ 16) (fits : crashlog.toBytes.length < 2 ^ 32) :
    storedRegions crashlog.toBytes =
      (crashlog.exportedSections.filterMap Cper.reparse).filterMap Region.fromCperSection := by
  obtain ⟨cper, read, bodies⟩ := Option.map_eq_some_iff.mp (export_reread nonempty counted fits)
  have notBert : Berr.fromBertFile crashlog.toBytes = none := export_is_not_bert _
  simp only [storedRegions, notBert, read, bodies]

/-- No region found in an export reaches the limit of a section. -/
theorem reread_region_fits {crashlog : CrashLog} (nonempty : crashlog.exportedSections ≠ [])
    (counted : crashlog.exportedSections.length < 2 ^ 16) (fits : crashlog.toBytes.length < 2 ^ 32)
    {region : Region} (found : region ∈ boxExpansion.run (storedRegions crashlog.toBytes)) :
    32 + region.toBytes.length < 2 ^ 32 := by
  obtain ⟨cper, read, bodies⟩ := Option.map_eq_some_iff.mp (export_reread nonempty counted fits)
  rw [stored_regions_of_reread nonempty counted fits, ← bodies] at found
  refine boxExpansion.run_induction (fun region => 32 + region.toBytes.length < 2 ^ 32) ?_ ?_
    region found
  · intro region stored
    obtain ⟨body, member, carries⟩ := List.mem_filterMap.mp stored
    obtain ⟨guid, bytes, _, bounded, parsed⟩ := Cper.bodies_provenance read member
    exact (cper_region_size parsed carries).trans_lt bounded
  · intro region parentFits child member
    have smaller : 8 + child.toBytes.length < 8 + region.toBytes.length :=
      boxExpansion.child_lighter member
    omega

/-- The region found again in the section of a region. -/
def reimport (region : Region) : Option Region :=
  Region.fromCperSection (.firmwareErrorRecord (FirmwareErrorRecord.fromCrashlogRegion region))

theorem regions_ne_nil {s : List Byte} {crashlog : CrashLog} (read : fromSlice s = .ok crashlog) :
    crashlog.regions ≠ [] := by
  obtain ⟨stored, expanded⟩ := from_slice_regions_iff.mp ⟨crashlog, read, rfl⟩
  rw [← expanded]
  exact fun none => stored (run_eq_nil_iff.mp none)

/-- When every region fits its section, importing an export finds what can be
parsed of each region, and nothing in the extra sections. -/
theorem stored_regions_reimported {s : List Byte} {crashlog : CrashLog}
    (read : fromSlice s = .ok crashlog)
    (counted : crashlog.exportedSections.length < 2 ^ 16) (fits : crashlog.toBytes.length < 2 ^ 32)
    (regionsFit : ∀ region ∈ crashlog.regions, 32 + region.toBytes.length < 2 ^ 32) :
    storedRegions crashlog.toBytes = crashlog.regions.filterMap reimport := by
  have nonempty : crashlog.exportedSections ≠ [] := by
    simp [exportedSections, regions_ne_nil read]
  have ofRegion : ∀ region ∈ crashlog.regions,
      (Cper.reparse (Cper.regionSection region)).bind Region.fromCperSection = reimport region := by
    intro region member
    rw [region_section_reparse (regionsFit region member), Option.bind_some, reimport]
  have ofExtra : ∀ body ∈ crashlog.metadata.extraCperSections,
      (Cper.reparse (CperSection.fromBody body)).bind Region.fromCperSection = none := by
    intro body member
    obtain ⟨regionless, guid, bytes, bounded, parsed⟩ := extra_section_provenance read member
    cases reparsed : Cper.reparse (CperSection.fromBody body) with
    | none => rfl
    | some again => exact extra_section_reparse parsed bounded regionless reparsed
  have extrasDropped := List.filterMap_congr ofExtra
  rw [stored_regions_of_reread nonempty counted fits, List.filterMap_filterMap, exportedSections,
    List.filterMap_append, List.filterMap_map, List.filterMap_map]
  simp only [Function.comp_def]
  rw [List.filterMap_congr ofRegion, extrasDropped]
  simp

/-- Importing an export of complete records finds the regions of the Crash Log
without their contexts. -/
theorem stored_regions_of_export {s : List Byte} {crashlog : CrashLog}
    (read : fromSlice s = .ok crashlog)
    (complete : ∀ region ∈ crashlog.regions, ∀ record ∈ region.records,
      record.header.headerSize ≤ record.data.length)
    (counted : crashlog.exportedSections.length < 2 ^ 16) (fits : crashlog.toBytes.length < 2 ^ 32)
    (regionsFit : ∀ region ∈ crashlog.regions, 32 + region.toBytes.length < 2 ^ 32) :
    storedRegions crashlog.toBytes = crashlog.regions.map Region.strip := by
  obtain ⟨_, expanded⟩ := from_slice_regions_iff.mp ⟨crashlog, read, rfl⟩
  have reread : ∀ region ∈ crashlog.regions, reimport region = some region.strip := by
    intro region member
    have parsed := regions_parsed region (expanded ▸ member)
    simp only [reimport, Region.fromCperSection, FirmwareErrorRecord.fromCrashlogRegion, if_true]
    rw [parsed.reread (complete region member)]
    rfl
  have regionsKept := List.filterMap_congr reread
  rw [List.filterMap_eq_map'] at regionsKept
  rw [stored_regions_reimported read counted fits regionsFit, regionsKept]

theorem box_children_eq_nil_iff (region : Region) :
    boxExpansion.children region = [] ↔ ∀ record ∈ region.records, boxedRegion record = none := by
  simp [boxExpansion, boxedRegions, List.filterMap_eq_nil_iff]

/-- Stored regions have no context that could be lost. -/
theorem strip_stored_regions (s : List Byte) : (storedRegions s).map Region.strip = storedRegions s := by
  conv_rhs => rw [← List.map_id (storedRegions s)]
  apply List.map_congr_left
  intro region member
  obtain ⟨bytes, parsed⟩ := stored_region_parsed member
  exact Region.strip_parsed parsed

/-- Export and import keep the regions exactly when no stored region carries a
region in a box, which would be taken out a second time and without its
parent, and every stored region fits a section. -/
theorem export_then_import_keeps_regions_iff (s : List Byte) (crashlog : CrashLog)
    (read : fromSlice s = .ok crashlog)
    (complete : ∀ region ∈ crashlog.regions, ∀ record ∈ region.records,
      record.header.headerSize ≤ record.data.length)
    (counted : crashlog.regions.length + crashlog.metadata.extraCperSections.length < 2 ^ 16)
    (fits : crashlog.toBytes.length < 2 ^ 32) :
    (∃ again, fromSlice crashlog.toBytes = .ok again ∧ again.regions = crashlog.regions) ↔
      ∀ region ∈ storedRegions s, (∀ record ∈ region.records, boxedRegion record = none) ∧
        32 + region.toBytes.length < 2 ^ 32 := by
  obtain ⟨_, expanded⟩ := from_slice_regions_iff.mp ⟨crashlog, read, rfl⟩
  have regionsNonempty := regions_ne_nil read
  have nonempty : crashlog.exportedSections ≠ [] := by
    simp [exportedSections, regionsNonempty]
  have sections : crashlog.exportedSections.length < 2 ^ 16 := by
    simpa [exportedSections] using counted
  constructor
  · rintro ⟨again, reread, same⟩
    obtain ⟨_, rerun⟩ := from_slice_regions_iff.mp ⟨again, reread, same⟩
    have regionsFit : ∀ region ∈ crashlog.regions, 32 + region.toBytes.length < 2 ^ 32 := by
      intro region member
      exact reread_region_fits nonempty sections fits (rerun ▸ member)
    rw [stored_regions_of_export read complete sections fits regionsFit] at rerun
    have unchanged : (boxExpansion.run (crashlog.regions.map Region.strip)).length =
        (crashlog.regions.map Region.strip).length := by
      rw [rerun, List.length_map]
    rw [Expansion.run_length_eq_iff] at unchanged
    intro region member
    have listed : region ∈ crashlog.regions := by
      rw [← expanded]
      exact boxExpansion.mem_run_of_mem member
    refine ⟨(box_children_eq_nil_iff region).mp ?_, regionsFit region listed⟩
    have none := unchanged region.strip (List.mem_map_of_mem listed)
    simpa only [boxExpansion, Region.boxed_regions_strip] using none
  · intro fine
    have childless : ∀ region ∈ storedRegions s, boxExpansion.children region = [] := fun region member =>
      (box_children_eq_nil_iff region).mpr (fine region member).1
    have same : crashlog.regions = storedRegions s := by
      rw [← expanded]
      exact boxExpansion.run_eq_self childless
    rw [from_slice_regions_iff, stored_regions_of_export read complete sections fits
      (fun region member => (fine region (same ▸ member)).2), same, strip_stored_regions]
    exact ⟨same ▸ regionsNonempty, boxExpansion.run_eq_self childless⟩

theorem mca_region_exported_and_imported :
    let crashlog : CrashLog := { regions := [⟨[{
      header := mcaHeader 2
      data := [0x08, 0xa1, 0x07, 0x3e, 2, 0, 0, 0] }]⟩] }
    ∃ again, fromSlice crashlog.toBytes = .ok again ∧ again.regions = crashlog.regions :=
  (export_then_import_keeps_regions_iff [0x08, 0xa1, 0x07, 0x3e, 2, 0, 0, 0]
    { regions := [⟨[{ header := mcaHeader 2, data := [0x08, 0xa1, 0x07, 0x3e, 2, 0, 0, 0] }]⟩] }
    (by decide +kernel) (by decide +kernel) (by decide +kernel) (by decide +kernel)).mpr
    (by decide +kernel)

/-- A Box record around a machine check record is exported next to its boxed
region, and imported with the boxed region taken out again. -/
theorem boxed_region_imported_twice :
    ¬ ∀ (s : List Byte) (crashlog : CrashLog), fromSlice s = .ok crashlog →
      (∀ region ∈ crashlog.regions, ∀ record ∈ region.records,
        record.header.headerSize ≤ record.data.length) →
      crashlog.regions.length + crashlog.metadata.extraCperSections.length < 2 ^ 16 →
      crashlog.toBytes.length < 2 ^ 32 →
      ∃ again, fromSlice crashlog.toBytes = .ok again ∧ again.regions = crashlog.regions := by
  intro roundTrips
  let box : Header := {
    version := { revision := 8, headerType := 1, productId := 0x7a, recordType := RecordTypes.BOX }
    size := { recordSize := 4 }
    headerType := .type1 }
  let inner : List Byte := [0x08, 0xa1, 0x07, 0x3e, 2, 0, 0, 0]
  let crashlog : CrashLog := { regions := [
    ⟨[{ header := box, data := [0x08, 0xa1, 0x07, 0x3d, 4, 0, 0, 0] ++ inner }]⟩,
    ⟨[{ header := mcaHeader 2, data := inner, context := { parentHeader := some box } }]⟩] }
  have read : fromSlice ([0x08, 0xa1, 0x07, 0x3d, 4, 0, 0, 0] ++ inner) = .ok crashlog := by
    decide +kernel
  obtain ⟨again, reread, same⟩ := roundTrips _ _ read (by decide +kernel) (by decide +kernel)
    (by decide +kernel)
  have three : (fromSlice crashlog.toBytes).toOption.map (fun again => again.regions.length) = some 3 := by
    decide +kernel
  rw [reread, Except.toOption, Option.map_some, same] at three
  cases three

end CrashLog

end Crashlog
