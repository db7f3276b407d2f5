import Fe2o3.AmdhsaLoader.Materialization

/-!
# What an accepted plan says about the segments

How each one lies in its pages, that their mappings follow one another, and where the
descriptors are loaded.
-/

namespace Fe2o3.AmdhsaLoader

open Lib List
open Lib.Words

variable {bytes : List UInt8} {raw : ProgramHeader} {segment : LoadSegment}
  {segments : PerSegment LoadSegment} {header : Header} {collected next : Collected}

/-! ### One segment -/

/-- The place of a segment in the file and in its pages. -/
structure Lies (bytes : List UInt8) (segment : LoadSegment) : Prop where
  fileSize : 0 < segment.fileSize
  memorySize : segment.fileSize ≤ segment.memorySize
  fileEnd : segment.fileEnd ≤ bytes.length
  mappingAddress : segment.mappingAddress = segment.virtualAddress / 4096 * 4096
  mappingSize : segment.mappingSize =
    (segment.virtualAddress - segment.mappingAddress + segment.memorySize + 4095) / 4096 * 4096
  bounded : segment.mappingEnd < 2 ^ 64

/-- The segment of a load header. -/
structure PlannedFrom (bytes : List UInt8) (raw : ProgramHeader) (segment : LoadSegment) :
    Prop where
  lies : Lies bytes segment
  offset : segment.fileOffset = raw.offset
  fileSize : segment.fileSize = raw.fileSize
  virtualAddress : segment.virtualAddress = raw.virtualAddress
  separate : ¬(raw.flags &&& pfExecute ≠ 0 ∧ raw.flags &&& pfWrite ≠ 0)

theorem Lies.order (h : Lies bytes segment) :
    segment.mappingAddress ≤ segment.virtualAddress ∧ segment.memoryEnd ≤ segment.mappingEnd := by
  have haddress := h.mappingAddress
  have hsize := h.mappingSize
  rw [LoadSegment.memoryEnd, LoadSegment.mappingEnd]
  omega

theorem range_of_validate {inputLen : Nat} (h : validateProgramHeaderRange raw inputLen = .ok ()) :
    raw.fileSize ≤ raw.memorySize ∧ raw.offset + raw.fileSize ≤ inputLen := by
  simp only [validateProgramHeaderRange, bind_eq_ok, failIf_eq_ok, okOr_eq_ok, checkedAdd_eq_some,
    exists_const, decide_eq_false_iff_not] at h
  omega

theorem plannedFrom_of_planLoadSegment
    (hrange : validateProgramHeaderRange raw bytes.length = .ok ())
    (h : planLoadSegment raw = .ok segment) : PlannedFrom bytes raw segment := by
  obtain ⟨hsize, hend⟩ := range_of_validate hrange
  simp only [planLoadSegment, check_eq_ok, bind_eq_ok, okOr_eq_ok, checkedAdd_eq_some,
    alignUp_eq_some, Except.ok.injEq] at h
  obtain ⟨hseparate, permissions, -, -, hempty, unrounded, ⟨rfl, -⟩, mappingSize,
    ⟨-, rfl⟩, mappingEnd, ⟨rfl, hbounded⟩, rfl⟩ := h
  exact ⟨⟨by show 0 < raw.fileSize; omega, hsize, hend, rfl, rfl, hbounded⟩, rfl, rfl,
    rfl, hseparate⟩

/-! ### The headers -/

/-- The program headers at some positions of the table. -/
def programHeaders (bytes : List UInt8) (header : Header) (indices : List Nat) :
    Planned (List ProgramHeader) :=
  indices.mapM (readProgramHeader bytes header.programOffset)

def ProgramHeader.isLoad (raw : ProgramHeader) : Bool := raw.headerType == ptLoad

/-- A slot that was filled holds one of the headers. -/
def Fills (raws : List ProgramHeader) (headerType : Nat) (slot : Option ProgramHeader) : Prop :=
  ∀ raw, slot = some raw → raw ∈ raws ∧ raw.headerType = headerType

/-- What has been collected from some of the headers. -/
structure Gathers (bytes : List UInt8) (raws : List ProgramHeader) (collected : Collected) :
    Prop where
  loads : List.Forall₂ (PlannedFrom bytes) (raws.filter ProgramHeader.isLoad) collected.loads
  programDescriptor : Fills raws ptPhdr collected.programDescriptor
  dynamic : Fills raws ptDynamic collected.dynamic
  note : Fills raws ptNote collected.note

variable {raws : List ProgramHeader}

variable {headerType : Nat} {slot : Option ProgramHeader}

theorem Fills.keep (h : Fills raws headerType slot) : Fills (raws ++ [raw]) headerType slot := by
  intro held hheld
  obtain ⟨hmem, htype⟩ := h held hheld
  exact ⟨mem_append_left _ hmem, htype⟩

theorem fills_new (h : raw.headerType = headerType) :
    Fills (raws ++ [raw]) headerType (some raw) := by
  rintro held ⟨rfl⟩
  exact ⟨mem_append_right _ (mem_singleton_self _), h⟩

theorem eq_of_setUnique {f : Option ProgramHeader → Collected}
    (h : (setUnique slot raw >>= fun slot => .ok (f slot)) = .ok next) : next = f (some raw) := by
  obtain ⟨filled, hslot, h⟩ := bind_eq_ok.mp h
  obtain ⟨-, hslot⟩ := check_eq_ok.mp hslot
  rw [← Except.ok.inj h, ← Except.ok.inj hslot]

theorem Gathers.other (h : Gathers bytes raws collected) (hload : raw.headerType ≠ ptLoad) :
    Gathers bytes (raws ++ [raw]) collected := by
  refine ⟨?_, h.programDescriptor.keep, h.dynamic.keep, h.note.keep⟩
  simpa [ProgramHeader.isLoad, filter_append, hload] using h.loads

variable {index : Nat}

theorem Gathers.step (h : Gathers bytes raws collected)
    (hstep : collectHeader bytes header collected index = .ok next) :
    ∃ raw, readProgramHeader bytes header.programOffset index = .ok raw ∧
      Gathers bytes (raws ++ [raw]) next := by
  obtain ⟨raw, hraw, hstep⟩ := bind_eq_ok.mp hstep
  obtain ⟨hrange, hstep⟩ := seq_eq_ok.mp hstep
  refine ⟨raw, hraw, ?_⟩
  split at hstep
  · rename_i htype
    obtain ⟨-, hstep⟩ := check_eq_ok.mp hstep
    obtain ⟨segment, hsegment, hstep⟩ := bind_eq_ok.mp hstep
    cases hstep
    refine ⟨?_, h.programDescriptor.keep, h.dynamic.keep, h.note.keep⟩
    have hload : [raw].filter ProgramHeader.isLoad = [raw] := by simp [ProgramHeader.isLoad, htype]
    rw [filter_append, hload]
    exact rel_append h.loads (.cons (plannedFrom_of_planLoadSegment hrange hsegment) .nil)
  · rename_i htype
    have hother := h.other htype
    split at hstep
    · obtain rfl := eq_of_setUnique hstep
      exact { hother with programDescriptor := fills_new ‹_› }
    split at hstep
    · obtain rfl := eq_of_setUnique hstep
      exact { hother with dynamic := fills_new ‹_› }
    split at hstep
    · obtain rfl := eq_of_setUnique hstep
      exact { hother with note := fills_new ‹_› }
    split at hstep
    · obtain rfl := eq_of_setUnique hstep
      exact { hother with }
    split at hstep
    · obtain rfl := eq_of_setUnique hstep
      exact { hother with }
    · nomatch hstep

theorem gathers_of_foldlM {indices : List Nat}
    (h : indices.foldlM (collectHeader bytes header) {} = .ok collected) :
    ∃ raws, programHeaders bytes header indices = .ok raws ∧ Gathers bytes raws collected := by
  refine foldlM_ok_invariant (fun seen collected => ∃ raws,
    programHeaders bytes header seen = .ok raws ∧ Gathers bytes raws collected) ?_ ?_ h
  · exact ⟨[], rfl, .nil, nofun, nofun, nofun⟩
  · rintro seen index before after ⟨raws, hraws, hgathers⟩ hstep
    obtain ⟨raw, hraw, hgathers⟩ := hgathers.step hstep
    refine ⟨raws ++ [raw], ?_, hgathers⟩
    rw [programHeaders] at hraws ⊢
    rw [mapM_append, hraws, mapM_cons, hraw]
    rfl

/-! ### The order of the segments -/

variable {loads : List LoadSegment}

theorem sortSegments_eq_ok (h : sortSegments loads = .ok segments) :
    segments.toList.Perm loads ∧
      segments.toList.Pairwise (·.virtualAddress ≤ ·.virtualAddress) := by
  have hsorted : segments.toList = loads.insertionSort (·.virtualAddress ≤ ·.virtualAddress) := by
    unfold sortSegments at h
    split at h
    · rename_i hsort
      rw [← Except.ok.inj h, hsort]
      rfl
    · nomatch h
  rw [hsorted]
  exact ⟨perm_insertionSort .., pairwise_insertionSort ..⟩

theorem mappings_follow {left right : LoadSegment} (hleft : Lies bytes left)
    (hright : Lies bytes right) (hle : left.virtualAddress ≤ right.virtualAddress)
    (h : checkNeighbours left right = .ok ()) : left.mappingEnd ≤ right.mappingAddress := by
  obtain ⟨-, h⟩ := seq_eq_ok.mp h
  have hapart := rangesOverlap_eq_false.mp (failIf_eq_ok.mp h)
  have hleftAddress := hleft.mappingAddress
  have horder := hright.order
  have hsize := hright.memorySize
  have hpositive := hright.fileSize
  rw [LoadSegment.memoryEnd] at horder
  omega

/-! ### Descriptors -/

/-- The file bytes of a descriptor are loaded with those of a segment. -/
structure LoadedWith (raw : ProgramHeader) (segment : LoadSegment) : Prop where
  offset : segment.fileOffset ≤ raw.offset
  fileEnd : raw.offset + raw.fileSize ≤ segment.fileEnd
  address : raw.virtualAddress = segment.virtualAddress + (raw.offset - segment.fileOffset)

theorem of_rangeContains {outerStart outerLen innerStart innerLen : Nat}
    (h : rangeContains outerStart outerLen innerStart innerLen = true) :
    outerStart ≤ innerStart ∧ innerStart + innerLen ≤ outerStart + outerLen := by
  unfold rangeContains at h
  split at h
  · rename_i outerEnd innerEnd houter hinner
    obtain ⟨rfl, -⟩ := checkedAdd_eq_some.mp houter
    obtain ⟨rfl, -⟩ := checkedAdd_eq_some.mp hinner
    simpa using h
  · nomatch h

variable {error : PlanError}

theorem of_replaceIf {contains : Bool} {slot filled : Option Nat}
    (h : replaceIf contains slot index error = .ok filled) :
    filled = slot ∨ contains = true ∧ filled = some index := by
  unfold replaceIf at h
  split at h
  · obtain ⟨-, h⟩ := check_eq_ok.mp h
    exact .inr ⟨‹_›, (Except.ok.inj h).symm⟩
  · exact .inl (Except.ok.inj h).symm

variable {permissions : SegmentPermissions}

/-- The segment that was found contains the file range. -/
theorem fileRange_of_find {found : Found}
    (h : segments.toList.zipIdx.foldlM (findSegment raw permissions) {} = .ok found) :
    ∀ index, found.fileSegment = some index → ∃ segment, segments.toList[index]? = some segment ∧
      rangeContains segment.fileOffset segment.fileSize raw.offset raw.fileSize = true := by
  refine foldlM_ok_preserves (I := fun found : Found => ∀ index, found.fileSegment = some index →
    ∃ segment, segments.toList[index]? = some segment ∧
      rangeContains segment.fileOffset segment.fileSize raw.offset raw.fileSize = true) ?_
    (by rintro index ⟨⟩) h
  rintro ⟨segment, position⟩ hmem before after hbefore hstep index hindex
  rw [findSegment] at hstep
  split at hstep
  · cases hstep
    exact hbefore index hindex
  · obtain ⟨memorySegment, -, hstep⟩ := bind_eq_ok.mp hstep
    obtain ⟨fileSegment, hfile, hstep⟩ := bind_eq_ok.mp hstep
    cases hstep
    obtain rfl | ⟨hcontains, rfl⟩ := of_replaceIf hfile
    · exact hbefore index hindex
    · cases hindex
      exact ⟨segment, mk_mem_zipIdx_iff_getElem?.mp hmem, hcontains⟩

theorem loadedWith_of_validate
    (h : validateDescriptorLoadMapping raw segments permissions error = .ok ()) :
    ∃ segment ∈ segments.toList, LoadedWith raw segment := by
  simp only [validateDescriptorLoadMapping, bind_eq_ok, okOr_eq_ok, checkedSub_eq_some, check_eq_ok,
    not_not] at h
  obtain ⟨found, hfound, index, hindex, _, -, -, segment, hsegment, fileDelta, hoffset, memoryDelta,
    haddress, rfl, -⟩ := h
  obtain ⟨same, hsame, hcontains⟩ := fileRange_of_find hfound index hindex
  cases hsegment.symm.trans hsame
  obtain ⟨hstart, hend⟩ := of_rangeContains hcontains
  exact ⟨segment, mem_of_getElem? hsegment, hstart, hend, by omega⟩

/-- The descriptor of the metadata lies in the note. -/
theorem metadata_in_note {note : ProgramHeader} {metadata : MetadataNote}
    (h : parseMetadataNote bytes note = .ok metadata) :
    note.offset ≤ metadata.fileOffset ∧
      metadata.fileOffset + metadata.byteLen ≤ note.offset + note.fileSize := by
  simp only [parseMetadataNote, bind_eq_ok, okOr_eq_ok, checkedAdd_eq_some, check_eq_ok,
    alignUp_eq_some, not_or, Except.ok.injEq] at h
  obtain ⟨stop, ⟨rfl, -⟩, nameSize, -, descriptorSize, -, noteType, -, -, -, nameStart, ⟨rfl, -⟩,
    nameEnd, ⟨rfl, -⟩, -, descriptorStart, ⟨-, rfl⟩, descriptorEnd, ⟨rfl, -⟩, recordEnd, -,
    ⟨hend, -⟩, rfl⟩ := h
  simp only [alignDown] at hend ⊢
  omega

/-! ### The plan -/

/-- What `plan` has found out about the bytes. -/
structure Laid (bytes : List UInt8) (raws : List ProgramHeader) (plan : LoadPlan) : Prop where
  planned : ∃ loads, List.Forall₂ (PlannedFrom bytes) (raws.filter ProgramHeader.isLoad) loads ∧
    plan.segments.toList.Perm loads
  lies : ∀ segment ∈ plan.segments.toList, Lies bytes segment
  follow : plan.segments.first.mappingEnd ≤ plan.segments.second.mappingAddress
  follow' : plan.segments.second.mappingEnd ≤ plan.segments.third.mappingAddress
  imageStart : plan.imageStart = plan.segments.first.mappingAddress
  imageEnd : plan.imageEnd = plan.segments.third.mappingEnd
  bounded : bytes.length < 2 ^ 64

/-- The descriptors, with the segments that load them. -/
structure Described (header : Header) (raws : List ProgramHeader) (plan : LoadPlan)
    (phdr dynamic note : ProgramHeader) : Prop where
  phdrHeader : phdr ∈ raws ∧ phdr.headerType = ptPhdr
  dynamicHeader : dynamic ∈ raws ∧ dynamic.headerType = ptDynamic
  noteHeader : note ∈ raws ∧ note.headerType = ptNote
  table : phdr.offset = header.programOffset ∧ phdr.virtualAddress = header.programOffset ∧
    phdr.fileSize = header.programCount * programHeaderBytes
  loaded : ∀ raw ∈ [phdr, dynamic, note], ∃ segment ∈ plan.segments.toList, LoadedWith raw segment
  metadata : note.offset ≤ plan.metadataNote.fileOffset ∧
    plan.metadataNote.fileOffset + plan.metadataNote.byteLen ≤ note.offset + note.fileSize

theorem exists_plannedFrom
    (h : List.Forall₂ (PlannedFrom bytes) (raws.filter ProgramHeader.isLoad) loads)
    (hmem : segment ∈ loads) : ∃ raw ∈ raws, raw.isLoad = true ∧ PlannedFrom bytes raw segment := by
  obtain ⟨raw, hraw, hplanned⟩ := exists_left_of_forall₂ h hmem
  obtain ⟨hraw, hload⟩ := mem_filter.mp hraw
  exact ⟨raw, hraw, hload, hplanned⟩

variable {profile : AdmittedProfile}

/-- A file within the limits of the header checks has a length that fits a word. -/
theorem length_lt_of_validateHeader (h : validateHeader bytes profile = .ok header) :
    bytes.length < 2 ^ 64 := by
  obtain ⟨hident, -⟩ := seq_eq_ok.mp h
  obtain ⟨hlength, -⟩ := check_eq_ok.mp hident
  exact Nat.lt_of_le_of_lt (not_lt.mp hlength) (by decide)

theorem mappings_of_validateLoadProfile (hlies : ∀ segment ∈ segments.toList, Lies bytes segment)
    (hsorted : segments.toList.Pairwise (·.virtualAddress ≤ ·.virtualAddress))
    (h : validateLoadProfile segments = .ok ()) :
    segments.first.mappingEnd ≤ segments.second.mappingAddress ∧
      segments.second.mappingEnd ≤ segments.third.mappingAddress := by
  simp only [validateLoadProfile, seq_eq_ok] at h
  obtain ⟨-, -, -, -, hfirst, hsecond⟩ := h
  simp only [PerSegment.toList, pairwise_cons, forall_mem_cons] at hsorted hlies
  exact ⟨mappings_follow hlies.1 hlies.2.1 hsorted.1.1 hfirst,
    mappings_follow hlies.2.1 hlies.2.2.1 hsorted.2.1.1 hsecond⟩

theorem laid_of_plan {result : LoadPlan} (h : plan bytes profile = .ok result) :
    ∃ header raws phdr dynamic note, validateHeader bytes profile = .ok header ∧
      programHeaders bytes header (List.range header.programCount) = .ok raws ∧
      Laid bytes raws result ∧ Described header raws result phdr dynamic note := by
  obtain ⟨header, hheader, h⟩ := bind_eq_ok.mp h
  obtain ⟨-, h⟩ := seq_eq_ok.mp h
  obtain ⟨collected, hcollected, h⟩ := bind_eq_ok.mp h
  obtain ⟨raws, hraws, hgathers⟩ := gathers_of_foldlM hcollected
  split at h
  · rename_i loads phdr dynamic note stack relro
    simp only [planSegments, bind_eq_ok, check_eq_ok, Except.ok.injEq] at h
    obtain ⟨segments, hsort, _, hprofile, _, hphdr, _, hdynamic, _, -, _, -, _, hnote, metadata,
      hmetadata, _, -, _, -, -, rfl⟩ := h
    obtain ⟨hperm, hsorted⟩ := sortSegments_eq_ok hsort
    have hlies : ∀ segment ∈ segments.toList, Lies bytes segment := by
      intro segment hmem
      obtain ⟨_, -, -, hplanned⟩ := exists_plannedFrom hgathers.loads (hperm.mem_iff.mp hmem)
      exact hplanned.lies
    obtain ⟨hfollow, hfollow'⟩ := mappings_of_validateLoadProfile hlies hsorted hprofile
    obtain ⟨htable, hphdr⟩ := check_eq_ok.mp hphdr
    simp only [not_or, not_not] at htable
    obtain ⟨-, -, hoffset, haddress, hsize, -⟩ := htable
    obtain ⟨-, hdynamic⟩ := check_eq_ok.mp hdynamic
    obtain ⟨-, hnote⟩ := check_eq_ok.mp hnote
    refine ⟨header, raws, phdr, dynamic, note, hheader, hraws,
      ⟨⟨loads, hgathers.loads, hperm⟩, hlies, hfollow, hfollow', rfl, rfl,
        length_lt_of_validateHeader hheader⟩,
      hgathers.programDescriptor phdr rfl, hgathers.dynamic dynamic rfl, hgathers.note note rfl,
      ⟨hoffset, haddress, hsize⟩, ?_, metadata_in_note hmetadata⟩
    simp only [forall_mem_cons]
    exact ⟨loadedWith_of_validate hphdr, loadedWith_of_validate hdynamic,
      loadedWith_of_validate hnote, nofun⟩
  · nomatch h

end Fe2o3.AmdhsaLoader
