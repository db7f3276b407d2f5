import Fe2o3.Lib.Outcome
import Fe2o3.Lib.Reader
import Fe2o3.Lib.Words

/-!
# The load envelope of `fe2o3-amdhsa-loader`

Which byte strings `plan` accepts as code objects of a profile, with every check in its
order, and the canonical plan it returns.

Words are numbers below `2 ^ 64` and `usize` has 64 bits, so conversions to it succeed.
A program header keeps its index in the table, since errors name it.  The three segments
are sorted by address; the source's sort may swap segments with the same address, which
overlap and are refused afterwards.
-/

namespace Fe2o3.AmdhsaLoader

open Lib
open Lib.Words

inductive PlanError where
  | inputTooLarge
  | truncated (context : String)
  | invalidMagic
  | unsupportedClass (found : UInt8)
  | unsupportedEndianness (found : UInt8)
  | unsupportedIdentVersion (found : UInt8)
  | unsupportedOsAbi (found : UInt8)
  | unsupportedAbiVersion (found : UInt8)
  | unsupportedIdentPadding
  | unsupportedElfType (found : Nat)
  | unsupportedMachine (found : Nat)
  | unsupportedElfVersion (found : Nat)
  | unsupportedEntryPoint (found : Nat)
  | unsupportedElfFlags (found : Nat)
  | unsupportedHeaderSize (found : Nat)
  | unsupportedProgramHeaderEntrySize (found : Nat)
  | unsupportedSectionHeaderEntrySize (found : Nat)
  | missingProgramHeaders
  | tooManyProgramHeaders
  | tooManySectionHeaders
  | extendedSectionNumbering
  | invalidSectionStringTableIndex
  | tableRangeOverflow (context : String)
  | tableOutOfBounds (context : String)
  | unsupportedSectionType (index sectionType : Nat)
  | unsupportedRelocationSection (index sectionType : Nat)
  | invalidSectionAlignment (index alignment : Nat)
  | sectionRangeOverflow (index : Nat)
  | sectionOutOfBounds (index : Nat)
  | unsupportedProgramHeaderType (index headerType : Nat)
  | duplicateProgramHeader (headerType : Nat)
  | unsupportedProgramHeaderFlags (index flags : Nat)
  | writableExecutableSegment (index : Nat)
  | invalidProgramHeaderAlignment (index alignment : Nat)
  | unsupportedLoadAlignment (index alignment : Nat)
  | misalignedProgramHeader (index : Nat)
  | fileSizeExceedsMemorySize (index : Nat)
  | fileRangeOverflow (index : Nat)
  | fileRangeOutOfBounds (index : Nat)
  | memoryRangeOverflow (index : Nat)
  | physicalAddressMismatch (index : Nat)
  | tooManyLoadSegments
  | unsupportedProgramHeaderProfile
  | loadFileOverlap
  | loadMemoryOverlap
  | loadMappingOverlap
  | mappingRangeOverflow
  | imageSpanTooLarge
  | programHeaderDescriptorMismatch
  | programHeaderNotReadOnlyLoaded
  | dynamicSegmentNotWritableLoaded
  | descriptorLoadMappingMismatch (index : Nat)
  | ambiguousDescriptorLoadMapping (index : Nat)
  | relroSegmentMismatch
  | invalidStackDescriptor
  | metadataNoteNotReadOnlyLoaded
  | invalidNoteRecord
  | unsupportedNote
  | metadataNoteTooLarge
  | tooManyDynamicEntries
  | missingDynamicTerminator
  | duplicateDynamicTag (tag : Nat)
  | missingDynamicTag (tag : Nat)
  | invalidDynamicValue (tag value : Nat)
  | unsupportedRelocationTag (tag : Nat)
  | unsupportedDynamicFeature (tag : Nat)
  | unsupportedDynamicTag (tag : Nat)
  | dynamicReferenceOutOfBounds (tag : Nat)
  | validatedRangeUnavailable
  | materializationRangeInvalid
  | materializationZeroCoverageMismatch
deriving DecidableEq

abbrev Planned (α : Type) : Type := Except PlanError α

/-! ### Constants -/

def elfHeaderBytes : Nat := 64
def programHeaderBytes : Nat := 56
def sectionHeaderBytes : Nat := 64
def dynamicEntryBytes : Nat := 16
def elfTypeDynamic : Nat := 3
def elfMachineAmdgpu : Nat := 224
def ptLoad : Nat := 1
def ptDynamic : Nat := 2
def ptNote : Nat := 4
def ptPhdr : Nat := 6
def ptGnuStack : Nat := 0x6474e551
def ptGnuRelro : Nat := 0x6474e552
def pfExecute : Nat := 1
def pfWrite : Nat := 2
def pfRead : Nat := 4
def shtNull : Nat := 0
def shtProgbits : Nat := 1
def shtSymtab : Nat := 2
def shtStrtab : Nat := 3
def shtRela : Nat := 4
def shtHash : Nat := 5
def shtDynamic : Nat := 6
def shtNote : Nat := 7
def shtNobits : Nat := 8
def shtRel : Nat := 9
def shtDynsym : Nat := 11
def shtGnuHash : Nat := 0x6ffffff6
def dtNull : Nat := 0
def dtPltrelsz : Nat := 2
def dtHash : Nat := 4
def dtStrtab : Nat := 5
def dtSymtab : Nat := 6
def dtRela : Nat := 7
def dtRelasz : Nat := 8
def dtRelaent : Nat := 9
def dtStrsz : Nat := 10
def dtSyment : Nat := 11
def dtInit : Nat := 12
def dtFini : Nat := 13
def dtRel : Nat := 17
def dtRelsz : Nat := 18
def dtRelent : Nat := 19
def dtPltrel : Nat := 20
def dtJmprel : Nat := 23
def dtInitArray : Nat := 25
def dtFiniArray : Nat := 26
def dtInitArraysz : Nat := 27
def dtFiniArraysz : Nat := 28
def dtFlags : Nat := 30
def dtGnuHash : Nat := 0x6ffffef5
def dtRelacount : Nat := 0x6ffffff9
def dtRelcount : Nat := 0x6ffffffa
def dfSymbolic : Nat := 2
def ntAmdgpuMetadata : Nat := 32
/-- `AMDGPU` and a zero byte. -/
def amdgpuNoteName : List UInt8 := [0x41, 0x4d, 0x44, 0x47, 0x50, 0x55, 0]
def maxInputBytes : Nat := 64 * 1024 * 1024
def maxProgramHeaders : Nat := 16
def loadSegmentCount : Nat := 3
def maxSectionHeaders : Nat := 256
def maxMetadataBytes : Nat := 4 * 1024 * 1024
def loadAlignment : Nat := 4096
def maxImageSpanBytes : Nat := 64 * 1024 * 1024

inductive AdmittedProfile where
  | gfx942XnackOffCov6
  | gfx950XnackOffCov6
deriving DecidableEq

def AdmittedProfile.elfFlags : AdmittedProfile → Nat
  | .gfx942XnackOffCov6 => 0x64c
  | .gfx950XnackOffCov6 => 0x64f

/-! ### Reading -/

def readU16 (bytes : List UInt8) (offset : Nat) (context : String) : Planned Nat :=
  readLe 2 bytes offset (.truncated context)

def readU32 (bytes : List UInt8) (offset : Nat) (context : String) : Planned Nat :=
  readLe 4 bytes offset (.truncated context)

def readU64 (bytes : List UInt8) (offset : Nat) (context : String) : Planned Nat :=
  readLe 8 bytes offset (.truncated context)

def checkByte (found expected : UInt8) (error : UInt8 → PlanError) : Planned Unit :=
  if found = expected then .ok () else .error (error found)

def validateTableRange (inputLen offset entrySize count : Nat) (context : String) :
    Planned Unit := do
  let stop ← okOr (.tableRangeOverflow context) (checkedAdd offset (entrySize * count))
  if stop > inputLen then .error (.tableOutOfBounds context) else .ok ()

def tableEntryOffset (tableOffset entrySize index : Nat) (context : String) : Planned Nat :=
  okOr (.tableRangeOverflow context) (checkedAdd tableOffset (entrySize * index))

def validAlignment (alignment : Nat) : Bool := alignment == 0 || isPowerOfTwo alignment

/-! ### The header -/

structure Header where
  programOffset : Nat
  programCount : Nat
  sectionOffset : Nat
  sectionCount : Nat

/-- A field of the header that must have one value. -/
def checkField (found expected : Nat) (error : Nat → PlanError) : Planned Unit :=
  if found = expected then .ok () else .error (error found)

variable (bytes : List UInt8)

def validateIdent : Planned Unit :=
  if bytes.length > maxInputBytes then .error .inputTooLarge
  else if bytes.length < elfHeaderBytes then .error (.truncated "ELF header")
  else if bytes.take 4 ≠ [0x7f, 0x45, 0x4c, 0x46] then .error .invalidMagic
  else do
    checkByte (bytes.getD 4 0) 2 .unsupportedClass
    checkByte (bytes.getD 5 0) 1 .unsupportedEndianness
    checkByte (bytes.getD 6 0) 1 .unsupportedIdentVersion
    checkByte (bytes.getD 7 0) 64 .unsupportedOsAbi
    checkByte (bytes.getD 8 0) 4 .unsupportedAbiVersion
    if ((bytes.drop 9).take 7).any (· != 0) then .error .unsupportedIdentPadding else .ok ()

/-- The section table of the header, which may be missing. -/
def validateSectionTable (offset entrySize count stringIndex : Nat) : Planned Unit :=
  if count > maxSectionHeaders then .error .tooManySectionHeaders
  else if count = 0 then
    if offset ≠ 0 ∨ entrySize ≠ 0 ∨ stringIndex ≠ 0 then .error .extendedSectionNumbering
    else .ok ()
  else if entrySize ≠ sectionHeaderBytes then .error (.unsupportedSectionHeaderEntrySize entrySize)
  else do
    validateTableRange bytes.length offset sectionHeaderBytes count "section-header table"
    if stringIndex ≥ count then .error .invalidSectionStringTableIndex else .ok ()

def validateHeader (profile : AdmittedProfile) : Planned Header := do
  validateIdent bytes
  let elfType ← readU16 bytes 16 "ELF type"
  checkField elfType elfTypeDynamic .unsupportedElfType
  let machine ← readU16 bytes 18 "ELF machine"
  checkField machine elfMachineAmdgpu .unsupportedMachine
  let version ← readU32 bytes 20 "ELF version"
  checkField version 1 .unsupportedElfVersion
  let entry ← readU64 bytes 24 "ELF entry point"
  checkField entry 0 .unsupportedEntryPoint
  let flags ← readU32 bytes 48 "ELF flags"
  checkField flags profile.elfFlags .unsupportedElfFlags
  let headerSize ← readU16 bytes 52 "ELF header size"
  checkField headerSize elfHeaderBytes .unsupportedHeaderSize
  let programOffset ← readU64 bytes 32 "program-header offset"
  let programEntrySize ← readU16 bytes 54 "program-header entry size"
  let programCount ← readU16 bytes 56 "program-header count"
  failIf (programCount == 0) .missingProgramHeaders
  failIf (programCount > maxProgramHeaders) .tooManyProgramHeaders
  checkField programEntrySize programHeaderBytes .unsupportedProgramHeaderEntrySize
  validateTableRange bytes.length programOffset programHeaderBytes programCount
    "program-header table"
  let sectionOffset ← readU64 bytes 40 "section-header offset"
  let sectionEntrySize ← readU16 bytes 58 "section-header entry size"
  let sectionCount ← readU16 bytes 60 "section-header count"
  let sectionStringIndex ← readU16 bytes 62 "section-string index"
  validateSectionTable bytes sectionOffset sectionEntrySize sectionCount sectionStringIndex
  .ok ⟨programOffset, programCount, sectionOffset, sectionCount⟩

def validateSection (header : Header) (index : Nat) : Planned Unit := do
  let base ← tableEntryOffset header.sectionOffset sectionHeaderBytes index "section header"
  let sectionType ← readU32 bytes (base + 4) "section type"
  if sectionType ∈ [shtRela, shtRel] then .error (.unsupportedRelocationSection index sectionType)
  else if sectionType ∉ [shtNull, shtProgbits, shtSymtab, shtStrtab, shtHash, shtDynamic, shtNote,
      shtNobits, shtDynsym, shtGnuHash] ∨ (index = 0 ∧ sectionType ≠ shtNull) then
    .error (.unsupportedSectionType index sectionType)
  else do
    let alignment ← readU64 bytes (base + 48) "section alignment"
    if validAlignment alignment = false then .error (.invalidSectionAlignment index alignment)
    else if sectionType = shtNobits then .ok ()
    else do
      let offset ← readU64 bytes (base + 24) "section offset"
      let size ← readU64 bytes (base + 32) "section size"
      let stop ← okOr (.sectionRangeOverflow index) (checkedAdd offset size)
      if stop > bytes.length then .error (.sectionOutOfBounds index) else .ok ()

def validateSections (header : Header) : Planned Unit :=
  (List.range header.sectionCount).forM (validateSection bytes header)

/-! ### Program headers -/

structure ProgramHeader where
  index : Nat
  headerType : Nat
  flags : Nat
  offset : Nat
  virtualAddress : Nat
  physicalAddress : Nat
  fileSize : Nat
  memorySize : Nat
  alignment : Nat
deriving DecidableEq

def readProgramHeader (tableOffset index : Nat) : Planned ProgramHeader := do
  let base ← tableEntryOffset tableOffset programHeaderBytes index "program header"
  let headerType ← readU32 bytes base "program-header type"
  let flags ← readU32 bytes (base + 4) "program-header flags"
  let offset ← readU64 bytes (base + 8) "program-header offset"
  let virtualAddress ← readU64 bytes (base + 16) "program-header virtual address"
  let physicalAddress ← readU64 bytes (base + 24) "program-header physical address"
  let fileSize ← readU64 bytes (base + 32) "program-header file size"
  let memorySize ← readU64 bytes (base + 40) "program-header memory size"
  let alignment ← readU64 bytes (base + 48) "program-header alignment"
  .ok ⟨index, headerType, flags, offset, virtualAddress, physicalAddress, fileSize, memorySize,
    alignment⟩

variable (raw : ProgramHeader)

def validateProgramHeaderRange (inputLen : Nat) : Planned Unit := do
  failIf (!validAlignment raw.alignment) (.invalidProgramHeaderAlignment raw.index raw.alignment)
  failIf (raw.alignment > 1 && raw.offset % raw.alignment != raw.virtualAddress % raw.alignment)
    (.misalignedProgramHeader raw.index)
  failIf (raw.fileSize > raw.memorySize) (.fileSizeExceedsMemorySize raw.index)
  let fileEnd ← okOr (.fileRangeOverflow raw.index) (checkedAdd raw.offset raw.fileSize)
  failIf (fileEnd > inputLen) (.fileRangeOutOfBounds raw.index)
  let _ ← okOr (.memoryRangeOverflow raw.index) (checkedAdd raw.virtualAddress raw.memorySize)
  failIf (raw.headerType != ptGnuStack && raw.physicalAddress != raw.virtualAddress)
    (.physicalAddressMismatch raw.index)

/-! ### Load segments -/

inductive SegmentPermissions where
  | readOnly
  | readExecute
  | readWrite
deriving DecidableEq

structure LoadSegment where
  fileOffset : Nat
  fileSize : Nat
  virtualAddress : Nat
  memorySize : Nat
  mappingAddress : Nat
  mappingSize : Nat
  permissions : SegmentPermissions
deriving DecidableEq

namespace LoadSegment

variable (segment : LoadSegment)

def fileEnd : Nat := segment.fileOffset + segment.fileSize
def memoryEnd : Nat := segment.virtualAddress + segment.memorySize
def mappingEnd : Nat := segment.mappingAddress + segment.mappingSize

end LoadSegment

def planLoadSegment : Planned LoadSegment :=
  if raw.flags &&& pfExecute ≠ 0 ∧ raw.flags &&& pfWrite ≠ 0 then
    .error (.writableExecutableSegment raw.index)
  else do
    let permissions ←
      (if raw.flags = pfRead then .ok .readOnly
      else if raw.flags = pfRead ||| pfExecute then .ok .readExecute
      else if raw.flags = pfRead ||| pfWrite then .ok .readWrite
      else .error (.unsupportedProgramHeaderFlags raw.index raw.flags))
    if raw.alignment ≠ loadAlignment then .error (.unsupportedLoadAlignment raw.index raw.alignment)
    else if raw.fileSize = 0 ∨ raw.memorySize = 0 then .error .unsupportedProgramHeaderProfile
    else do
      let mappingAddress := alignDown raw.virtualAddress loadAlignment
      let unrounded ← okOr .mappingRangeOverflow
        (checkedAdd (raw.virtualAddress - mappingAddress) raw.memorySize)
      let mappingSize ← okOr .mappingRangeOverflow (alignUp unrounded loadAlignment)
      let _ ← okOr .mappingRangeOverflow (checkedAdd mappingAddress mappingSize)
      .ok ⟨raw.offset, raw.fileSize, raw.virtualAddress, raw.memorySize, mappingAddress,
        mappingSize, permissions⟩

/-- One value for each canonical segment, in the order of `SegmentOrdinal`. -/
structure PerSegment (α : Type) where
  first : α
  second : α
  third : α
deriving DecidableEq

def PerSegment.toList {α : Type} (values : PerSegment α) : List α :=
  [values.first, values.second, values.third]

def checkFilesApart (first second : LoadSegment) : Planned Unit :=
  failIf (rangesOverlap first.fileOffset first.fileEnd second.fileOffset second.fileEnd)
    .loadFileOverlap

def checkNeighbours (first second : LoadSegment) : Planned Unit := do
  failIf (rangesOverlap first.virtualAddress first.memoryEnd second.virtualAddress second.memoryEnd)
    .loadMemoryOverlap
  failIf (rangesOverlap first.mappingAddress first.mappingEnd second.mappingAddress
    second.mappingEnd)
    .loadMappingOverlap

def validateLoadProfile (segments : PerSegment LoadSegment) : Planned Unit := do
  let count := fun permissions => segments.toList.countP (·.permissions == permissions)
  failIf (count .readOnly != 1 || count .readExecute != 1 || count .readWrite != 1)
    .unsupportedProgramHeaderProfile
  checkFilesApart segments.first segments.second
  checkFilesApart segments.first segments.third
  checkFilesApart segments.second segments.third
  checkNeighbours segments.first segments.second
  checkNeighbours segments.second segments.third

/-! ### Descriptors -/

def rangeContains (outerStart outerLen innerStart innerLen : Nat) : Bool :=
  match checkedAdd outerStart outerLen, checkedAdd innerStart innerLen with
  | some outerEnd, some innerEnd => outerStart ≤ innerStart && innerEnd ≤ outerEnd
  | _, _ => false

/-- The positions of the segments found so far, by file range and by memory range. -/
structure Found where
  fileSegment : Option Nat := none
  memorySegment : Option Nat := none

/-- `Option::replace`, refused when there was a value. -/
def replaceIf (contains : Bool) (slot : Option Nat) (index : Nat) (error : PlanError) :
    Planned (Option Nat) :=
  if contains then
    if slot.isSome then .error error else .ok (some index)
  else .ok slot

def findSegment (permissions : SegmentPermissions) (found : Found) :
    LoadSegment × Nat → Planned Found
  | (segment, index) =>
  if segment.permissions ≠ permissions then .ok found
  else do
    let memorySegment ← replaceIf
      (rangeContains segment.virtualAddress segment.memorySize raw.virtualAddress raw.memorySize)
      found.memorySegment index (.ambiguousDescriptorLoadMapping raw.index)
    let fileSegment ← replaceIf
      (rangeContains segment.fileOffset segment.fileSize raw.offset raw.fileSize)
      found.fileSegment index (.ambiguousDescriptorLoadMapping raw.index)
    .ok ⟨fileSegment, memorySegment⟩

def validateDescriptorLoadMapping (segments : PerSegment LoadSegment)
    (permissions : SegmentPermissions) (notContained : PlanError) : Planned Unit := do
  let found ← segments.toList.zipIdx.foldlM (findSegment raw permissions) {}
  let fileSegment ← okOr notContained found.fileSegment
  let memorySegment ← okOr notContained found.memorySegment
  let mismatch := .descriptorLoadMappingMismatch raw.index
  if fileSegment ≠ memorySegment then .error mismatch
  else do
    let segment ← okOr mismatch segments.toList[fileSegment]?
    let fileDelta ← okOr mismatch (checkedSub raw.offset segment.fileOffset)
    let memoryDelta ← okOr mismatch (checkedSub raw.virtualAddress segment.virtualAddress)
    if fileDelta ≠ memoryDelta then .error mismatch else .ok ()

def validateProgramDescriptor (header : Header)
    (segments : PerSegment LoadSegment) : Planned Unit :=
  let tableSize := header.programCount * programHeaderBytes
  if raw.flags ≠ pfRead ∨ raw.alignment ≠ 8 ∨ raw.offset ≠ header.programOffset ∨
      raw.virtualAddress ≠ header.programOffset ∨ raw.fileSize ≠ tableSize ∨
      raw.memorySize ≠ tableSize then .error .programHeaderDescriptorMismatch
  else validateDescriptorLoadMapping raw segments .readOnly .programHeaderNotReadOnlyLoaded

def validateDynamicDescriptor (segments : PerSegment LoadSegment) : Planned Unit :=
  if raw.flags ≠ pfRead ||| pfWrite ∨ raw.alignment ≠ 8 ∨ raw.fileSize = 0 ∨
      raw.fileSize ≠ raw.memorySize ∨ raw.fileSize % dynamicEntryBytes ≠ 0 then
    .error .unsupportedProgramHeaderProfile
  else validateDescriptorLoadMapping raw segments .readWrite .dynamicSegmentNotWritableLoaded

def validateRelroDescriptor (segments : PerSegment LoadSegment) : Planned Unit := do
  let writable ← okOr .relroSegmentMismatch
    (segments.toList.find? (·.permissions == .readWrite))
  if raw.flags ≠ pfRead ∨ raw.alignment ≠ 1 ∨ raw.offset ≠ writable.fileOffset ∨
      raw.virtualAddress ≠ writable.virtualAddress ∨ raw.fileSize ≠ writable.fileSize ∨
      raw.memorySize ≠ writable.memorySize then .error .relroSegmentMismatch
  else validateDescriptorLoadMapping raw segments .readWrite .relroSegmentMismatch

def validateStackDescriptor : Planned Unit :=
  if raw.flags ≠ pfRead ||| pfWrite ∨ raw.offset ≠ 0 ∨ raw.virtualAddress ≠ 0 ∨
      raw.physicalAddress ≠ 0 ∨ raw.fileSize ≠ 0 ∨ raw.memorySize ≠ 0 ∨ raw.alignment ≠ 0 then
    .error .invalidStackDescriptor
  else .ok ()

def validateNoteDescriptor (segments : PerSegment LoadSegment) : Planned Unit :=
  if raw.flags ≠ pfRead ∨ raw.alignment ≠ 4 ∨ raw.fileSize = 0 ∨ raw.fileSize ≠ raw.memorySize then
    .error .unsupportedProgramHeaderProfile
  else validateDescriptorLoadMapping raw segments .readOnly .metadataNoteNotReadOnlyLoaded

structure MetadataNote where
  fileOffset : Nat
  byteLen : Nat
deriving DecidableEq

def parseMetadataNote (note : ProgramHeader) : Planned MetadataNote := do
  let start := note.offset
  let stop ← okOr .invalidNoteRecord (checkedAdd note.offset note.fileSize)
  let nameSize ← readU32 bytes start "note name size"
  let descriptorSize ← readU32 bytes (start + 4) "note descriptor size"
  let noteType ← readU32 bytes (start + 8) "note type"
  if nameSize ≠ amdgpuNoteName.length ∨ noteType ≠ ntAmdgpuMetadata then .error .unsupportedNote
  else if descriptorSize = 0 ∨ descriptorSize > maxMetadataBytes then .error .metadataNoteTooLarge
  else do
    let nameStart ← okOr .invalidNoteRecord (checkedAdd start 12)
    let nameEnd ← okOr .invalidNoteRecord (checkedAdd nameStart nameSize)
    if bytes.length < nameEnd ∨ (bytes.drop nameStart).take nameSize ≠ amdgpuNoteName then
      .error .unsupportedNote
    else do
      let descriptorStart ← okOr .invalidNoteRecord (alignUp nameEnd 4)
      let descriptorEnd ← okOr .invalidNoteRecord (checkedAdd descriptorStart descriptorSize)
      let recordEnd ← okOr .invalidNoteRecord (alignUp descriptorEnd 4)
      if descriptorEnd > stop ∨ recordEnd ≠ stop then .error .invalidNoteRecord
      else .ok ⟨descriptorStart, descriptorSize⟩

/-! ### Dynamic entries -/

structure DynamicTable where
  seen : Nat := 0
  symtab : Nat := 0
  strtab : Nat := 0
  strsz : Nat := 0
  hash : Nat := 0
  gnuHash : Nat := 0
  terminated : Bool := false

/-- Marks a tag as seen. -/
def mark (bit tag : Nat) (table : DynamicTable) : Planned DynamicTable :=
  if table.seen &&& 2 ^ bit ≠ 0 then .error (.duplicateDynamicTag tag)
  else .ok { table with seen := table.seen ||| 2 ^ bit }

/-- One round of the loop.  A null entry is the last one, so the `break` is left out. -/
def readDynamicEntry (dynamic : ProgramHeader) (entryCount : Nat)
    (table : DynamicTable) (index : Nat) : Planned DynamicTable := do
  let offset ← okOr (.fileRangeOverflow dynamic.index)
    (checkedAdd dynamic.offset (index * dynamicEntryBytes))
  let tag ← readU64 bytes offset "dynamic tag"
  let value ← readU64 bytes (offset + 8) "dynamic value"
  let invalid := .error (.invalidDynamicValue tag value)
  if tag = dtNull then
    if value ≠ 0 ∨ index + 1 ≠ entryCount then invalid else .ok { table with terminated := true }
  else if tag = dtSymtab then mark 0 tag { table with symtab := value }
  else if tag = dtSyment then if value ≠ 24 then invalid else mark 1 tag table
  else if tag = dtStrtab then mark 2 tag { table with strtab := value }
  else if tag = dtStrsz then if value = 0 then invalid else mark 3 tag { table with strsz := value }
  else if tag = dtHash then mark 4 tag { table with hash := value }
  else if tag = dtGnuHash then mark 5 tag { table with gnuHash := value }
  else if tag = dtFlags then if value ≠ dfSymbolic then invalid else mark 6 tag table
  else if tag ∈ [dtPltrelsz, dtRela, dtRelasz, dtRelaent, dtRel, dtRelsz, dtRelent,
      dtPltrel, dtJmprel, dtRelacount, dtRelcount] then .error (.unsupportedRelocationTag tag)
  else if tag ∈ [dtInit, dtFini, dtInitArray, dtFiniArray, dtInitArraysz, dtFiniArraysz] then
    .error (.unsupportedDynamicFeature tag)
  else .error (.unsupportedDynamicTag tag)

def validateReadOnlyReference (segments : PerSegment LoadSegment) (address len tag : Nat) :
    Planned Unit :=
  if segments.toList.any fun segment => segment.permissions == .readOnly &&
      rangeContains segment.virtualAddress segment.fileSize address len then .ok ()
  else .error (.dynamicReferenceOutOfBounds tag)

def validateDynamicEntries (dynamic : ProgramHeader)
    (segments : PerSegment LoadSegment) : Planned Unit :=
  let entryCount := dynamic.fileSize / dynamicEntryBytes
  if entryCount > 16 then .error .tooManyDynamicEntries
  else do
    let table ← (List.range entryCount).foldlM (readDynamicEntry bytes dynamic entryCount) {}
    if table.terminated = false then .error .missingDynamicTerminator
    else do
      [(0, dtSymtab), (1, dtSyment), (2, dtStrtab), (3, dtStrsz), (4, dtHash), (5, dtGnuHash)].forM
        fun (bit, tag) => failIf (table.seen &&& 2 ^ bit == 0) (.missingDynamicTag tag)
      validateReadOnlyReference segments table.symtab 24 dtSymtab
      validateReadOnlyReference segments table.strtab table.strsz dtStrtab
      validateReadOnlyReference segments table.hash 8 dtHash
      validateReadOnlyReference segments table.gnuHash 16 dtGnuHash

/-! ### The plan -/

/-- The program headers met so far. -/
structure Collected where
  loads : List LoadSegment := []
  programDescriptor : Option ProgramHeader := none
  dynamic : Option ProgramHeader := none
  note : Option ProgramHeader := none
  stack : Option ProgramHeader := none
  relro : Option ProgramHeader := none

def setUnique (slot : Option ProgramHeader) (raw : ProgramHeader) :
    Planned (Option ProgramHeader) :=
  if slot.isSome then .error (.duplicateProgramHeader raw.headerType) else .ok (some raw)

def collectHeader (header : Header) (collected : Collected) (index : Nat) : Planned Collected := do
  let raw ← readProgramHeader bytes header.programOffset index
  validateProgramHeaderRange raw bytes.length
  if raw.headerType = ptLoad then
    if collected.loads.length = loadSegmentCount then .error .tooManyLoadSegments
    else do
      let segment ← planLoadSegment raw
      .ok { collected with loads := collected.loads ++ [segment] }
  else if raw.headerType = ptPhdr then do
    let slot ← setUnique collected.programDescriptor raw
    .ok { collected with programDescriptor := slot }
  else if raw.headerType = ptDynamic then do
    let slot ← setUnique collected.dynamic raw
    .ok { collected with dynamic := slot }
  else if raw.headerType = ptNote then do
    let slot ← setUnique collected.note raw
    .ok { collected with note := slot }
  else if raw.headerType = ptGnuStack then do
    let slot ← setUnique collected.stack raw
    .ok { collected with stack := slot }
  else if raw.headerType = ptGnuRelro then do
    let slot ← setUnique collected.relro raw
    .ok { collected with relro := slot }
  else .error (.unsupportedProgramHeaderType index raw.headerType)

structure LoadPlan where
  profile : AdmittedProfile
  inputLen : Nat
  segments : PerSegment LoadSegment
  metadataNote : MetadataNote
  imageStart : Nat
  imageEnd : Nat
deriving DecidableEq

/-- The segments in the order of their addresses, if there are three. -/
def sortSegments (loads : List LoadSegment) : Planned (PerSegment LoadSegment) :=
  match loads.insertionSort (·.virtualAddress ≤ ·.virtualAddress) with
  | [first, second, third] => .ok ⟨first, second, third⟩
  | _ => .error .unsupportedProgramHeaderProfile

/-- The checks of the descriptors that the headers give. -/
def planSegments (profile : AdmittedProfile) (header : Header) (segments : PerSegment LoadSegment)
    (programDescriptor dynamic note stack relro : ProgramHeader) : Planned LoadPlan := do
  validateLoadProfile segments
  validateProgramDescriptor programDescriptor header segments
  validateDynamicDescriptor dynamic segments
  validateRelroDescriptor relro segments
  validateStackDescriptor stack
  validateNoteDescriptor note segments
  let metadataNote ← parseMetadataNote bytes note
  validateDynamicEntries bytes dynamic segments
  let imageStart := segments.first.mappingAddress
  let imageEnd := segments.third.mappingEnd
  let span ← okOr .mappingRangeOverflow (checkedSub imageEnd imageStart)
  if span > maxImageSpanBytes then .error .imageSpanTooLarge
  else .ok ⟨profile, bytes.length, segments, metadataNote, imageStart, imageEnd⟩

def plan (profile : AdmittedProfile) : Planned LoadPlan := do
  let header ← validateHeader bytes profile
  validateSections bytes header
  let collected ← (List.range header.programCount).foldlM (collectHeader bytes header) {}
  match collected with
  | ⟨loads, some programDescriptor, some dynamic, some note, some stack, some relro⟩ => do
    let segments ← sortSegments loads
    planSegments bytes profile header segments programDescriptor dynamic note stack relro
  | _ => .error .unsupportedProgramHeaderProfile

end Fe2o3.AmdhsaLoader
