import Fe2o3.StaticExecutable.Format

/-!
# What an accepted image satisfies

`Accepted` collects the facts about segments and tables that a loader relies on:
segments share no page and none is writable and executable, tables lie in read-only
memory, relocation targets in writable memory, and code addresses in executable file
bytes.
-/

namespace Fe2o3.StaticExecutable

open Lib List
open Lib.Words

/-! ### Segments and pages -/

namespace ProgramHeader

variable (load : ProgramHeader)

def pageStart : Nat := alignDown load.virtualAddress loadPageBytes

def pageEnd : Nat :=
  alignDown (load.virtualAddress + load.memorySize + (loadPageBytes - 1)) loadPageBytes

def Writable : Prop := load.flags &&& pfW ≠ 0

def Executable : Prop := load.flags &&& pfX ≠ 0

end ProgramHeader

def wordAt (bytes : List UInt8) (offset : Nat) : Nat := ofLeBytes ((bytes.drop offset).take 8)

def relocationKind (entry : List UInt8) : Nat := wordAt entry 8 % 2 ^ 32

/-- The facts about a load segment that the loader relies on. -/
structure LoadFits (bytes : List UInt8) (load : ProgramHeader) : Prop where
  separate : ¬(load.Writable ∧ load.Executable)
  fileSize : load.fileSize ≤ load.memorySize
  fileEnd : load.offset + load.fileSize ≤ bytes.length
  congruent : load.offset % loadPageBytes = load.virtualAddress % loadPageBytes

/-- Two segments have no page in common. -/
def PagesApart (left right : ProgramHeader) : Prop :=
  left.pageEnd ≤ right.pageStart ∨ right.pageEnd ≤ left.pageStart

/-- The file bytes behind a range of a segment. -/
structure Backed (bytes : List UInt8) (load : ProgramHeader) (address : Nat)
    (slice : List UInt8) : Prop where
  start : load.virtualAddress ≤ address
  stop : address + slice.length ≤ load.virtualAddress + load.fileSize
  content : slice = (bytes.drop (load.offset + (address - load.virtualAddress))).take slice.length

/-- The file bytes behind a range of read-only memory. -/
def ReadOnly (bytes : List UInt8) (loads : List ProgramHeader) (address : Nat)
    (slice : List UInt8) : Prop :=
  ∃ load ∈ loads, ¬load.Writable ∧ Backed bytes load address slice

/-- An address in the file bytes of an executable segment. -/
def InCode (loads : List ProgramHeader) (address : Nat) : Prop :=
  ∃ load ∈ loads, load.Executable ∧ load.virtualAddress ≤ address ∧
    address < load.virtualAddress + load.fileSize

/-- A word in the memory of a segment that is writable and not executable. -/
def InData (loads : List ProgramHeader) (address : Nat) : Prop :=
  ∃ load ∈ loads, load.Writable ∧ ¬load.Executable ∧ load.virtualAddress ≤ address ∧
    address + 8 ≤ load.virtualAddress + load.memorySize

/-- An address in the memory of a segment. -/
def Mapped (loads : List ProgramHeader) (address : Nat) : Prop :=
  ∃ load ∈ loads, load.virtualAddress ≤ address ∧ address < load.virtualAddress + load.memorySize

/-- The addend of an entry: its last word, or the word of the file behind its target. -/
def FileAddend (bytes : List UInt8) (loads : List ProgramHeader) (entry : List UInt8) :
    Bool → Nat → Prop
  | true, addend => addend = wordAt entry 16
  | false, addend => ∃ slice,
    mappedFileSlice bytes loads (wordAt entry 0) 8 (pfR ||| pfW) pfX = .ok slice ∧
      addend = wordAt slice 0

/-- An entry that the validator has accepted. -/
structure EntryFits (bytes : List UInt8) (loads : List ProgramHeader) (withAddend : Bool)
    (entry : List UInt8) : Prop where
  target : InData loads (wordAt entry 0)
  addend : ∃ addend, FileAddend bytes loads entry withAddend addend ∧
    (relocationKind entry = rX86Relative ∧ Mapped loads addend ∨
      relocationKind entry = rX86Irelative ∧ InCode loads addend)

/-- A table of the dynamic segment, when it is there. -/
def TableFits (bytes : List UInt8) (elf : StaticElf) (addressTag : Nat) (size : Option Nat) :
    Prop :=
  ∀ address count, dynamicValue elf.entries addressTag = some address → size = some count →
    ∃ slice, mappedFileSlice bytes elf.loads address count pfR pfW = .ok slice

/-- The tags of the tables of functions. -/
def functionArrays : List (Nat × Nat) :=
  [(dtInitArray, dtInitArraysz), (dtFiniArray, dtFiniArraysz)]

/-- The tables and addresses of the dynamic segment. -/
structure Tables (bytes : List UInt8) (elf : StaticElf) : Prop where
  strings : TableFits bytes elf dtStrtab (dynamicValue elf.entries dtStrsz)
  symbols : TableFits bytes elf dtSymtab (some 24)
  init : ∀ address, dynamicValue elf.entries dtInit = some address → InCode elf.loads address
  fini : ∀ address, dynamicValue elf.entries dtFini = some address → InCode elf.loads address
  relocations : ∀ withAddend address size,
    dynamicValue elf.entries (relocationTable withAddend).addressTag = some address →
    dynamicValue elf.entries (relocationTable withAddend).sizeTag = some size →
    ∃ encoded, mappedFileSlice bytes elf.loads address size pfR pfW = .ok encoded ∧
      ∀ entry ∈ chunksExact (relocationTable withAddend).entrySize encoded,
        EntryFits bytes elf.loads withAddend entry
  functions : ∀ tags ∈ functionArrays, ∀ address size,
    dynamicValue elf.entries tags.1 = some address → dynamicValue elf.entries tags.2 = some size →
    ∃ encoded, mappedFileSlice bytes elf.loads address size (pfR ||| pfW) pfX = .ok encoded ∧
      ∀ item ∈ chunksExact 8 encoded, wordAt item 0 = 0 ∨ InCode elf.loads (wordAt item 0)

structure Accepted (bytes : List UInt8) (elf : StaticElf) : Prop extends Tables bytes elf where
  loads : ∀ load ∈ elf.loads, LoadFits bytes load
  apart : elf.loads.Pairwise PagesApart
  headers : ∃ load ∈ elf.loads, ¬load.Writable ∧ load.offset = 0 ∧
    elf.header.tableEnd ≤ load.fileSize
  entrypoint : InCode elf.loads elf.header.entrypoint

variable {offset : Nat} {slice : List UInt8} {withAddend : Bool} {header : ElfHeader}
  {programs : List ProgramHeader}

section Acceptance

variable {bytes : List UInt8} {loads : List ProgramHeader} {load : ProgramHeader}
  {address size : Nat}

theorem orFalse_eq_true {answer : Checked Bool} : orFalse answer = true ↔ answer = .ok true := by
  cases answer with
  | error error => exact iff_of_false nofun nofun
  | ok answer => simp [orFalse]

theorem of_containsFileRange (h : orFalse (load.containsFileRange offset size) = true) :
    load.offset ≤ offset ∧ offset + size ≤ load.offset + load.fileSize := by
  simp only [orFalse_eq_true, ProgramHeader.containsFileRange, bind_eq_ok, okOr_eq_ok,
    checkedAdd_eq_some] at h
  obtain ⟨_, ⟨rfl, -⟩, h⟩ := h
  split at h
  · cases h
  · obtain ⟨_, hend, h⟩ := bind_eq_ok.mp h
    obtain ⟨rfl, -⟩ := checkedAdd_eq_some.mp (okOr_eq_ok.mp hend)
    have hle := of_decide_eq_true (Except.ok.inj h)
    omega

theorem of_containsMemoryRange {fileBacked : Bool}
    (h : orFalse (load.containsMemoryRange address size fileBacked) = true) :
    load.virtualAddress ≤ address ∧ address + size ≤ load.virtualAddress +
      if fileBacked then load.fileSize else load.memorySize := by
  rw [orFalse_eq_true, ProgramHeader.containsMemoryRange, bind_eq_ok] at h
  obtain ⟨stop, hstop, h⟩ := h
  obtain ⟨segmentEnd, hend, h⟩ := bind_eq_ok.mp h
  have hstop := (checkedAdd_eq_some.mp (okOr_eq_ok.mp hstop)).1
  have hend : load.virtualAddress + (if fileBacked then load.fileSize else load.memorySize) =
      segmentEnd := by
    cases fileBacked <;> exact (checkedAdd_eq_some.mp (okOr_eq_ok.mp hend)).1
  have hle := Except.ok.inj h
  rw [Bool.and_eq_true, decide_eq_true_iff, decide_eq_true_iff] at hle
  omega

theorem inCode_of_isExecutableAddress (h : isExecutableAddress loads address = true) :
    InCode loads address := by
  obtain ⟨load, hmem, hload⟩ := any_eq_true.mp h
  rw [Bool.and_eq_true, bne_iff_ne] at hload
  obtain ⟨hstart, hend⟩ := of_containsMemoryRange hload.2
  exact ⟨load, hmem, hload.1, hstart, hend⟩

theorem inData_of_isWritableTarget (h : isWritableTarget loads address 8 = true) :
    InData loads address := by
  obtain ⟨load, hmem, hload⟩ := any_eq_true.mp h
  rw [Bool.and_eq_true, Bool.and_eq_true, bne_iff_ne, beq_iff_eq] at hload
  obtain ⟨hstart, hend⟩ := of_containsMemoryRange hload.2
  exact ⟨load, hmem, hload.1.1, not_not.mpr hload.1.2, hstart, hend⟩

theorem mapped_of_isAllowedMappedAddress (h : isAllowedMappedAddress loads address = true) :
    Mapped loads address := by
  obtain ⟨load, hmem, hload⟩ := any_eq_true.mp (Bool.and_eq_true_iff.mp h).2
  exact ⟨load, hmem, of_containsMemoryRange (Bool.and_eq_true_iff.mp hload).2⟩

theorem backed_of_mappedFileSlice {required forbidden : Nat}
    (h : mappedFileSlice bytes loads address size required forbidden = .ok slice) :
    slice.length = size ∧
      ∃ load ∈ loads, load.flags &&& forbidden = 0 ∧ Backed bytes load address slice := by
  unfold mappedFileSlice at h
  split at h
  · cases h
  · rename_i load hfilter
    obtain ⟨hmem, hload⟩ := mem_filter.mp (hfilter ▸ mem_singleton_self load)
    rw [Bool.and_eq_true, Bool.and_eq_true, beq_iff_eq, beq_iff_eq] at hload
    obtain ⟨hstart, hend⟩ := of_containsMemoryRange hload.2
    simp only [bind_eq_ok, okOr_eq_ok, checkedAdd_eq_some, check_eq_ok, Except.ok.injEq] at h
    obtain ⟨_, ⟨rfl, -⟩, _, ⟨rfl, -⟩, hbound, hslice⟩ := h
    have hlength : slice.length = size := by
      rw [← hslice, length_take, length_drop]
      omega
    refine ⟨hlength, load, hmem, hload.1.2, hstart, ?_, ?_⟩
    · rw [hlength]
      exact hend
    · rw [hlength]
      exact hslice.symm
  · cases h

/-- A slice of memory that is not written to. -/
theorem readOnly_of_mappedFileSlice
    (h : mappedFileSlice bytes loads address size pfR pfW = .ok slice) :
    slice.length = size ∧ ReadOnly bytes loads address slice := by
  obtain ⟨hlength, load, hmem, hflags, hbacked⟩ := backed_of_mappedFileSlice h
  exact ⟨hlength, load, hmem, not_not.mpr hflags, hbacked⟩

/-! ### Load segments -/

theorem and_eq_of_ne_zero {flags flag : Nat}
    (hflag : ∀ value < flag, value &&& flag = value → value = 0) (h : flags &&& flag ≠ 0) :
    flags &&& flag = flag := by
  by_contra hne
  have hlt : flags &&& flag < flag := Nat.lt_of_le_of_ne Nat.and_le_right hne
  exact h (hflag _ hlt (by rw [Nat.and_assoc, Nat.and_self]))

/-- A segment that is not refused for its flags is not writable and executable. -/
theorem separate_of_flags (h : load.flags &&& (pfW ||| pfX) ≠ pfW ||| pfX) :
    ¬(load.Writable ∧ load.Executable) := by
  rintro ⟨hwritable, hexecutable⟩
  rw [Nat.and_or_distrib_left, and_eq_of_ne_zero (by decide) hwritable,
    and_eq_of_ne_zero (by decide) hexecutable] at h
  exact h rfl

theorem fits_of_validateProgramBounds (h : validateProgramBounds bytes load = .ok ()) :
    load.fileSize ≤ load.memorySize ∧ load.offset + load.fileSize ≤ bytes.length := by
  obtain ⟨fileEnd, hend, h⟩ := bind_eq_ok.mp h
  have hend := (checkedAdd_eq_some.mp (okOr_eq_ok.mp hend)).1
  obtain ⟨hbad, -⟩ := check_eq_ok.mp h
  omega

theorem loadFits_of_checkLoad (hbounds : validateProgramBounds bytes load = .ok ())
    (h : checkLoad load = .ok ()) : LoadFits bytes load := by
  obtain ⟨hflags, h⟩ := check_eq_ok.mp h
  obtain ⟨hlayout, -⟩ := check_eq_ok.mp h
  obtain ⟨hsize, hend⟩ := fits_of_validateProgramBounds hbounds
  refine ⟨separate_of_flags fun hboth => hflags (.inr hboth), hsize, hend, ?_⟩
  by_contra hne
  exact hlayout (.inr (.inr hne))

theorem loaderVirtualPages_eq {pages : Nat × Nat} (h : loaderVirtualPages load = .ok pages) :
    pages = (load.pageStart, load.pageEnd) := by
  simp only [loaderVirtualPages, ProgramHeader.memoryEnd, bind_eq_ok, okOr_eq_ok,
    checkedAdd_eq_some, alignUp_eq_some, Except.ok.injEq] at h
  obtain ⟨_, ⟨rfl, -⟩, _, ⟨-, rfl⟩, rfl⟩ := h
  rfl

theorem pagesApart_of_checkLoadPair {left right : ProgramHeader}
    (h : checkLoadPair left right = .ok ()) : PagesApart left right := by
  simp only [checkLoadPair, bind_eq_ok, check_eq_ok] at h
  obtain ⟨_, -, _, -, -, leftPages, hleft, rightPages, hright, hpages, -⟩ := h
  rw [loaderVirtualPages_eq hleft, loaderVirtualPages_eq hright, Bool.not_eq_true,
    rangesOverlap_eq_false] at hpages
  exact hpages.symm

theorem pairwise_of_checkLoadPairs (h : checkLoadPairs loads = .ok ()) :
    loads.Pairwise PagesApart := by
  induction loads with
  | nil => exact .nil
  | cons left rest ih =>
    obtain ⟨hleft, hrest⟩ := seq_eq_ok.mp h
    refine .cons (fun right hright => ?_) (ih hrest)
    exact pagesApart_of_checkLoadPair (forM_eq_ok.mp hleft right hright)

/-! ### Tables -/

theorem wordAt_of_readU64 {value : Nat} (h : readU64 bytes offset = .ok value) :
    wordAt bytes offset = value := by
  obtain ⟨-, h⟩ := check_eq_ok.mp h
  exact Except.ok.inj h

theorem entryFits_of_validateRelocation {relativeCount index : Nat} {entry : List UInt8}
    (h : validateRelocation bytes loads withAddend relativeCount (entry, index) = .ok ()) :
    EntryFits bytes loads withAddend entry := by
  simp only [validateRelocation, bind_eq_ok, check_eq_ok] at h
  obtain ⟨target, htarget, info, hinfo, hkinds, -, hwritable, addend, haddend, -, h⟩ := h
  obtain rfl := wordAt_of_readU64 htarget
  obtain rfl := wordAt_of_readU64 hinfo
  refine ⟨inData_of_isWritableTarget ((Bool.not_eq_false _).mp hwritable), addend, ?_, ?_⟩
  · cases withAddend with
    | true => exact (wordAt_of_readU64 haddend).symm
    | false =>
      obtain ⟨slice, hslice, hword⟩ := bind_eq_ok.mp haddend
      exact ⟨slice, hslice, (wordAt_of_readU64 hword).symm⟩
  · split at h
    · next hrelative =>
      split at h
      · exact .inl ⟨hrelative, mapped_of_isAllowedMappedAddress ‹_›⟩
      · cases h
    · next hother =>
      have hkind := mem_pair.mp (not_not.mp (not_or.mp hkinds).2)
      split at h
      · exact .inr ⟨hkind.resolve_left hother, inCode_of_isExecutableAddress ‹_›⟩
      · cases h

variable {elf : StaticElf}

theorem relocations_of_validateRelocations
    (h : validateRelocations bytes loads elf.entries withAddend = .ok ())
    (haddress : dynamicValue elf.entries (relocationTable withAddend).addressTag = some address)
    (hsize : dynamicValue elf.entries (relocationTable withAddend).sizeTag = some size) :
    ∃ encoded, mappedFileSlice bytes loads address size pfR pfW = .ok encoded ∧
      ∀ entry ∈ chunksExact (relocationTable withAddend).entrySize encoded,
        EntryFits bytes loads withAddend entry := by
  simp only [validateRelocations, haddress, hsize, bind_eq_ok, check_eq_ok] at h
  obtain ⟨_, ⟨⟩, _, -, -, encoded, hencoded, -, h⟩ := h
  refine ⟨encoded, hencoded, fun entry hentry => ?_⟩
  obtain ⟨index, hindex⟩ := getElem?_of_mem hentry
  have hmem := mk_mem_zipIdx_iff_getElem?.mpr hindex
  exact entryFits_of_validateRelocation (forM_eq_ok.mp h _ hmem)

theorem functions_of_validateFunctionArray {tags : Nat × Nat}
    (h : validateFunctionArray bytes loads elf.entries tags.1 tags.2 = .ok ())
    (haddress : dynamicValue elf.entries tags.1 = some address)
    (hsize : dynamicValue elf.entries tags.2 = some size) :
    ∃ encoded, mappedFileSlice bytes loads address size (pfR ||| pfW) pfX = .ok encoded ∧
      ∀ item ∈ chunksExact 8 encoded, wordAt item 0 = 0 ∨ InCode loads (wordAt item 0) := by
  simp only [validateFunctionArray, haddress, hsize] at h
  obtain ⟨-, h⟩ := check_eq_ok.mp h
  obtain ⟨encoded, hencoded, h⟩ := bind_eq_ok.mp h
  refine ⟨encoded, hencoded, fun item hitem => ?_⟩
  obtain ⟨function, hfunction, hitem⟩ := bind_eq_ok.mp (forM_eq_ok.mp h item hitem)
  obtain rfl := wordAt_of_readU64 hfunction
  obtain ⟨hbad, -⟩ := check_eq_ok.mp hitem
  rw [not_and_or, not_not, Bool.not_eq_false] at hbad
  exact hbad.imp_right inCode_of_isExecutableAddress

theorem slice_of_checkTable {valid : Nat → Bool}
    (h : checkTable bytes loads (some address) (some size) valid = .ok ()) :
    valid size = true ∧ ∃ slice, mappedFileSlice bytes loads address size pfR pfW = .ok slice := by
  obtain ⟨hvalid, h⟩ := check_eq_ok.mp h
  obtain ⟨slice, hslice, -⟩ := bind_eq_ok.mp h
  exact ⟨(Bool.not_eq_false _).mp hvalid, slice, hslice⟩

theorem inCode_of_checkCodeAddress {value : Option Nat} (h : checkCodeAddress loads value = .ok ())
    (hvalue : value = some address) : InCode loads address := by
  subst hvalue
  rw [checkCodeAddress] at h
  split at h
  · exact inCode_of_isExecutableAddress ‹_›
  · nomatch h

theorem tables_of_nil (h : elf.entries = []) : Tables bytes elf := by
  have hnone : ∀ {tag address}, dynamicValue elf.entries tag = some address → False := by
    rw [h]
    nofun
  exact ⟨fun _ _ h => (hnone h).elim, fun _ _ h => (hnone h).elim, fun _ h => (hnone h).elim,
    fun _ h => (hnone h).elim, fun _ _ _ h => (hnone h).elim, fun _ _ _ _ h => (hnone h).elim⟩

theorem tables_of_validateDynamicTables
    (h : validateDynamicTables bytes elf.loads elf.entries = .ok ()) : Tables bytes elf := by
  simp only [validateDynamicTables, seq_eq_ok] at h
  obtain ⟨-, hsymbolPair, -, -, -, -, hstrings, hsymbols, -, hinit, hfini, hinits, hfinis, hrela,
    hrel⟩ := h
  refine ⟨?_, ?_, fun _ => inCode_of_checkCodeAddress hinit,
    fun _ => inCode_of_checkCodeAddress hfini, ?_, ?_⟩
  · intro address size haddress hsize
    rw [haddress, hsize] at hstrings
    exact (slice_of_checkTable hstrings).2
  · intro address size haddress hsize
    cases hsize
    obtain ⟨hpair, -⟩ := check_eq_ok.mp hsymbolPair
    rw [haddress, not_not] at hpair
    obtain ⟨entrySize, hentrySize⟩ := Option.isSome_iff_exists.mp hpair.symm
    rw [haddress, hentrySize] at hsymbols
    obtain ⟨hvalid, hslice⟩ := slice_of_checkTable hsymbols
    rwa [beq_iff_eq.mp hvalid] at hslice
  · intro withAddend address size
    cases withAddend with
    | true => exact relocations_of_validateRelocations hrela
    | false => exact relocations_of_validateRelocations hrel
  · intro tags htags address size
    obtain rfl | rfl := mem_pair.mp htags
    · exact functions_of_validateFunctionArray hinits
    · exact functions_of_validateFunctionArray hfinis

theorem loadFits_of_parsePrograms (hprograms : parsePrograms bytes header = .ok programs)
    (hmem : load ∈ programs) (hcheck : checkLoad load = .ok ()) : LoadFits bytes load := by
  obtain ⟨index, -, hparse⟩ := exists_left_of_forall₂ (mapM_eq_ok hprograms) hmem
  obtain ⟨parsed, -, hparse⟩ := bind_eq_ok.mp hparse
  obtain ⟨hbounds, hparse⟩ := seq_eq_ok.mp hparse
  cases hparse
  exact loadFits_of_checkLoad hbounds hcheck

theorem headers_of_any {programOffset tableEnd : Nat}
    (h : (loads.any fun load => load.flags == pfR &&
      orFalse (load.containsFileRange 0 tableEnd) && load.offset == 0 &&
        decide (elfHeaderBytes ≤ programOffset)) = true) :
    ∃ load ∈ loads, ¬load.Writable ∧ load.offset = 0 ∧ tableEnd ≤ load.fileSize := by
  obtain ⟨load, hmem, hload⟩ := any_eq_true.mp h
  rw [Bool.and_eq_true, Bool.and_eq_true, Bool.and_eq_true, beq_iff_eq, beq_iff_eq] at hload
  obtain ⟨⟨⟨hflags, hrange⟩, hoffset⟩, -⟩ := hload
  obtain ⟨-, hend⟩ := of_containsFileRange hrange
  refine ⟨load, hmem, ?_, hoffset, by omega⟩
  rw [ProgramHeader.Writable, hflags]
  decide

theorem accepted_of_parts {entries : List DynamicEntry}
    (hprograms : parsePrograms bytes header = .ok programs)
    (hloads : validateLoadSegments (programs.filter (·.kind == ptLoad)) header.programOffset
      header.tableEnd header.entrypoint = .ok ())
    (htables : Tables bytes ⟨header, programs.filter (·.kind == ptLoad), entries⟩) :
    Accepted bytes ⟨header, programs.filter (·.kind == ptLoad), entries⟩ := by
  simp only [validateLoadSegments, check_eq_ok, seq_eq_ok, not_or, Bool.not_eq_false] at hloads
  obtain ⟨-, hchecks, hpairs, hcovered, -⟩ := hloads
  refine ⟨htables, fun load hload => ?_, pairwise_of_checkLoadPairs hpairs,
    headers_of_any hcovered.1, inCode_of_isExecutableAddress hcovered.2⟩
  exact loadFits_of_parsePrograms hprograms (mem_of_mem_filter hload)
    (forM_eq_ok.mp hchecks load hload)

theorem accepted_of_validate (h : validateSealedStaticElf bytes = .ok elf) :
    Accepted bytes elf := by
  obtain ⟨header, -, h⟩ := bind_eq_ok.mp h
  obtain ⟨programs, hprograms, h⟩ := bind_eq_ok.mp h
  obtain ⟨hloads, h⟩ := seq_eq_ok.mp h
  obtain ⟨-, h⟩ := seq_eq_ok.mp h
  split at h
  · obtain ⟨-, h⟩ := check_eq_ok.mp h
    cases h
    exact accepted_of_parts hprograms hloads (tables_of_nil rfl)
  · obtain ⟨entries, hentries, h⟩ := bind_eq_ok.mp h
    cases h
    simp only [validateDynamicSegment, check_eq_ok, bind_eq_ok, Except.ok.injEq] at hentries
    obtain ⟨-, read, -, -, _, -, _, htables, rfl⟩ := hentries
    exact accepted_of_parts hprograms hloads (tables_of_validateDynamicTables htables)
  · cases h

end Acceptance

end Fe2o3.StaticExecutable
