import Fe2o3.Lib.Outcome
import Fe2o3.Lib.Reader
import Fe2o3.Lib.Words

/-!
# The validator of `fe2o3-static-executable-format`

Which byte strings are sealed static x86-64 executables, with every check of
`validate_sealed_static_elf_v1` in its order.

The source returns nothing on success; here the validator returns what it has parsed
(`StaticElf`), so that statements about an accepted image can speak of its segments and
its dynamic entries.  Fields of 64 bits are numbers below `2 ^ 64`, and `usize` has 64
bits, so conversions between the two succeed.  A signed field is its bit pattern: the
tags compared with are not negative, and a negative addend is a pattern of `2 ^ 63` or
more.
-/

namespace Fe2o3.StaticExecutable

open Lib
open Lib.Words

inductive SealedStaticApplicationError where
  | invalidElf
  | unsupportedElf
  | programHeaderBounds
  | interpreterPresent
  | unsupportedProgramHeader
  | segmentLayout
  | segmentPermissions
  | runtimeDependencyPresent
  | dynamicSegmentMalformed
  | unsupportedDynamicTag
  | relocationMalformed
  | unsupportedRelocation
deriving DecidableEq

abbrev Checked (α : Type) : Type := Except SealedStaticApplicationError α

/-! ### Constants -/

def elfHeaderBytes : Nat := 64
def elfProgramHeaderBytes : Nat := 56
def elfMachineX86 : Nat := 62
def etExec : Nat := 2
def etDyn : Nat := 3
def pfX : Nat := 1
def pfW : Nat := 2
def pfR : Nat := 4
def ptNull : Nat := 0
def ptLoad : Nat := 1
def ptDynamic : Nat := 2
def ptInterp : Nat := 3
def ptNote : Nat := 4
def ptPhdr : Nat := 6
def ptTls : Nat := 7
def ptGnuEhFrame : Nat := 0x6474e550
def ptGnuStack : Nat := 0x6474e551
def ptGnuRelro : Nat := 0x6474e552
def dtNull : Nat := 0
def dtNeeded : Nat := 1
def dtStrtab : Nat := 5
def dtSymtab : Nat := 6
def dtRela : Nat := 7
def dtRelasz : Nat := 8
def dtRelaent : Nat := 9
def dtStrsz : Nat := 10
def dtSyment : Nat := 11
def dtInit : Nat := 12
def dtFini : Nat := 13
def dtSoname : Nat := 14
def dtRpath : Nat := 15
def dtRel : Nat := 17
def dtRelsz : Nat := 18
def dtRelent : Nat := 19
def dtDebug : Nat := 21
def dtTextrel : Nat := 22
def dtBindNow : Nat := 24
def dtInitArray : Nat := 25
def dtFiniArray : Nat := 26
def dtInitArraysz : Nat := 27
def dtFiniArraysz : Nat := 28
def dtRunpath : Nat := 29
def dtFlags : Nat := 30
def dtGnuHash : Nat := 0x6ffffef5
def dtRelacount : Nat := 0x6ffffff9
def dtRelcount : Nat := 0x6ffffffa
def dtFlags1 : Nat := 0x6ffffffb
def dtDepaudit : Nat := 0x6ffffefb
def dtAudit : Nat := 0x6ffffefc
def dtAuxiliary : Nat := 0x7ffffffd
def dtFilter : Nat := 0x7fffffff
def dfBindNow : Nat := 0x8
def df1Now : Nat := 0x1
def df1Pie : Nat := 0x08000000
def rX86Relative : Nat := 8
def rX86Irelative : Nat := 37
def maxProgramHeaders : Nat := 1024
def maxDynamicTags : Nat := 32
def loadPageBytes : Nat := 4096
def maxUserAddress : Nat := 0x00007fffffffffff

/-! ### Reading -/

def readU16 (bytes : List UInt8) (offset : Nat) : Checked Nat :=
  readLe 2 bytes offset .programHeaderBounds

def readU32 (bytes : List UInt8) (offset : Nat) : Checked Nat :=
  readLe 4 bytes offset .programHeaderBounds

def readU64 (bytes : List UInt8) (offset : Nat) : Checked Nat :=
  readLe 8 bytes offset .programHeaderBounds

/-- `slice::chunks_exact`: the rest that does not fill a chunk is left out. -/
def chunksExact (size : Nat) (bytes : List UInt8) : List (List UInt8) :=
  (List.range (bytes.length / size)).map fun index => (bytes.drop (index * size)).take size

/-! ### Program headers -/

structure ProgramHeader where
  kind : Nat
  flags : Nat
  offset : Nat
  virtualAddress : Nat
  fileSize : Nat
  memorySize : Nat
  alignment : Nat
deriving DecidableEq

namespace ProgramHeader

variable (program : ProgramHeader)

def fileEnd : Checked Nat := okOr .segmentLayout (checkedAdd program.offset program.fileSize)

def memoryEnd : Checked Nat :=
  okOr .segmentLayout (checkedAdd program.virtualAddress program.memorySize)

def containsFileRange (offset size : Nat) : Checked Bool := do
  let stop ← okOr .segmentLayout (checkedAdd offset size)
  if offset < program.offset then .ok false
  else do
    let fileEnd ← program.fileEnd
    .ok (stop ≤ fileEnd)

def containsMemoryRange (address size : Nat) (fileBacked : Bool) : Checked Bool := do
  let stop ← okOr .segmentLayout (checkedAdd address size)
  let segmentEnd ←
    (if fileBacked then okOr .segmentLayout (checkedAdd program.virtualAddress program.fileSize)
    else program.memoryEnd)
  .ok (program.virtualAddress ≤ address && stop ≤ segmentEnd)

end ProgramHeader

/-- `Result::unwrap_or(false)`. -/
def orFalse : Checked Bool → Bool
  | .ok answer => answer
  | .error _ => false

variable (bytes : List UInt8)

def parseProgram (start : Nat) : Checked ProgramHeader := do
  let program := (bytes.drop start).take elfProgramHeaderBytes
  let kind ← readU32 program 0
  let flags ← readU32 program 4
  let offset ← readU64 program 8
  let virtualAddress ← readU64 program 16
  let fileSize ← readU64 program 32
  let memorySize ← readU64 program 40
  let alignment ← readU64 program 48
  .ok ⟨kind, flags, offset, virtualAddress, fileSize, memorySize, alignment⟩

def validateProgramBounds (program : ProgramHeader) : Checked Unit := do
  let fileEnd ← program.fileEnd
  if program.flags &&& 0xfffffff8 ≠ 0 ∨ program.fileSize > program.memorySize ∨
      fileEnd > bytes.length ∨ (program.alignment > 1 ∧
        (isPowerOfTwo program.alignment = false ∨
          program.offset % program.alignment ≠ program.virtualAddress % program.alignment)) then
    .error .segmentLayout
  else if program.kind ∈ [ptNull, ptLoad, ptDynamic, ptNote, ptPhdr, ptTls,
      ptGnuEhFrame, ptGnuStack, ptGnuRelro] then .ok ()
  else if program.kind = ptInterp then .error .interpreterPresent
  else .error .unsupportedProgramHeader

/-! ### Load segments -/

def loaderVirtualPages (load : ProgramHeader) : Checked (Nat × Nat) := do
  let memoryEnd ← load.memoryEnd
  let stop ← okOr .segmentLayout (alignUp memoryEnd loadPageBytes)
  .ok (alignDown load.virtualAddress loadPageBytes, stop)

def loaderFilePages (load : ProgramHeader) : Checked (Nat × Nat) :=
  if load.fileSize = 0 then .ok (0, 0)
  else do
    let fileEnd ← load.fileEnd
    let stop ← okOr .segmentLayout (alignUp fileEnd loadPageBytes)
    .ok (alignDown load.offset loadPageBytes, stop)

def checkLoad (load : ProgramHeader) : Checked Unit :=
  if load.flags &&& pfR = 0 ∨ load.flags &&& (pfW ||| pfX) = pfW ||| pfX then
    .error .segmentPermissions
  else if load.memorySize = 0 ∨ load.alignment < loadPageBytes ∨
      load.offset % loadPageBytes ≠ load.virtualAddress % loadPageBytes then .error .segmentLayout
  else do
    let memoryEnd ← load.memoryEnd
    if memoryEnd > maxUserAddress then .error .segmentLayout else .ok ()

/-- Two load segments share no byte of memory, no page, and no byte of the file. -/
def checkLoadPair (left right : ProgramHeader) : Checked Unit := do
  let leftEnd ← left.memoryEnd
  let rightEnd ← right.memoryEnd
  if rangesOverlap left.virtualAddress leftEnd right.virtualAddress rightEnd then
    .error .segmentLayout
  else do
    let leftPages ← loaderVirtualPages left
    let rightPages ← loaderVirtualPages right
    if rangesOverlap leftPages.1 leftPages.2 rightPages.1 rightPages.2 then .error .segmentLayout
    else do
      let leftFile ← loaderFilePages left
      let rightFile ← loaderFilePages right
      if rangesOverlap leftFile.1 leftFile.2 rightFile.1 rightFile.2 then do
        let leftFileEnd ← left.fileEnd
        let rightFileEnd ← right.fileEnd
        if rangesOverlap left.offset leftFileEnd right.offset rightFileEnd then
          .error .segmentLayout
        else .ok ()
      else .ok ()

def checkLoadPairs : List ProgramHeader → Checked Unit
  | [] => .ok ()
  | left :: rest => do
    rest.forM (checkLoadPair left)
    checkLoadPairs rest

variable (loads : List ProgramHeader)

def isExecutableAddress (address : Nat) : Bool :=
  loads.any fun load => load.flags &&& pfX != 0 && orFalse (load.containsMemoryRange address 1 true)

def validateLoadSegments (programOffset tableEnd entrypoint : Nat) : Checked Unit :=
  if loads.isEmpty then .error .segmentLayout
  else do
    loads.forM checkLoad
    checkLoadPairs loads
    let headersCovered := loads.any fun load =>
      load.flags == pfR && orFalse (load.containsFileRange 0 tableEnd) && load.offset == 0 &&
        decide (elfHeaderBytes ≤ programOffset)
    if headersCovered = false ∨ isExecutableAddress loads entrypoint = false then
      .error .segmentLayout
    else .ok ()

/-! ### Auxiliary segments -/

def owningLoad (segment : ProgramHeader) : Checked ProgramHeader :=
  match loads.filter fun load =>
      orFalse (load.containsFileRange segment.offset segment.fileSize) &&
      orFalse (load.containsMemoryRange segment.virtualAddress segment.memorySize false) &&
      (segment.fileSize == 0 ||
        (if load.virtualAddress ≤ segment.virtualAddress then
          some (segment.virtualAddress - load.virtualAddress) else none) ==
        (if load.offset ≤ segment.offset then some (segment.offset - load.offset) else none)) with
  | [owner] => .ok owner
  | _ => .error .segmentLayout

def requireWritableOwner (program : ProgramHeader) : Checked Unit := do
  let owner ← owningLoad loads program
  if owner.flags &&& pfW = 0 ∨ owner.flags &&& pfX ≠ 0 then .error .segmentPermissions else .ok ()

/-- One round of the loop; every kind that it does not name was refused while parsing. -/
def checkAuxiliary (program : ProgramHeader) : Checked Unit :=
  if program.kind ∈ [ptNull, ptLoad, ptGnuStack] then .ok ()
  else do
    if program.kind ∈ [ptPhdr, ptNote, ptGnuEhFrame] then
      if program.flags ≠ pfR then .error .segmentPermissions else .ok ()
    else if program.kind = ptTls ∧
        (program.flags ≠ pfR ∨ program.memorySize = 0 ∨ program.alignment = 0) then
      .error .segmentLayout
    else if program.kind = ptGnuRelro ∧ (program.flags ≠ pfR ∨ program.memorySize = 0) then
      .error .segmentLayout
    else requireWritableOwner loads program
    let _ ← owningLoad loads program
    .ok ()

def validateAuxiliarySegments (programs loads : List ProgramHeader)
    (programOffset tableSize : Nat) : Checked Unit :=
  let phdrs := programs.filter (·.kind == ptPhdr)
  match programs.filter (·.kind == ptGnuStack) with
  | [stack] =>
    if phdrs.length > 1 then .error .segmentLayout
    else if phdrs.any fun phdr => phdr.flags != pfR || phdr.offset != programOffset ||
        phdr.fileSize != tableSize || phdr.memorySize != tableSize || phdr.alignment != 8 then
      .error .segmentLayout
    else if stack.flags ≠ pfR ||| pfW ∨ stack.fileSize ≠ 0 ∨ stack.memorySize ≠ 0 then
      .error .segmentPermissions
    else do
      programs.forM (checkAuxiliary loads)
      if programs.countP (·.kind == ptTls) > 1 ∨ programs.countP (·.kind == ptGnuRelro) > 1 then
        .error .segmentLayout
      else .ok ()
  | _ => .error .segmentLayout

/-! ### The dynamic segment -/

structure DynamicEntry where
  tag : Nat
  value : Nat
deriving DecidableEq

variable (entries : List DynamicEntry)

def dynamicValue (tag : Nat) : Option Nat :=
  (entries.find? (·.tag == tag)).map (·.value)

def classifyDynamicTag (entry : DynamicEntry) : Checked Unit :=
  if entry.tag ∈ [dtStrtab, dtSymtab, dtRela, dtRelasz, dtRelaent, dtStrsz, dtSyment,
      dtInit, dtFini, dtRel, dtRelsz, dtRelent, dtDebug, dtBindNow, dtInitArray, dtFiniArray,
        dtInitArraysz,
      dtFiniArraysz, dtFlags, dtGnuHash, dtRelacount, dtRelcount, dtFlags1] then .ok ()
  else if entry.tag ∈ [dtNeeded, dtSoname, dtRpath, dtRunpath, dtDepaudit, dtAudit, dtAuxiliary,
      dtFilter] then .error .runtimeDependencyPresent
  else if entry.tag = dtTextrel then .error .segmentPermissions
  else .error .unsupportedDynamicTag

/-- One entry of the dynamic segment: the entries so far, and whether a null entry has ended
    them. -/
def readDynamicEntry (state : List DynamicEntry × Bool) (encoded : List UInt8) :
    Checked (List DynamicEntry × Bool) := do
  let (entries, terminated) := state
  let tag ← readU64 encoded 0
  let value ← readU64 encoded 8
  if terminated then
    if tag ≠ dtNull ∨ value ≠ 0 then .error .dynamicSegmentMalformed else .ok state
  else if tag = dtNull then
    if value ≠ 0 then .error .dynamicSegmentMalformed else .ok (entries, true)
  else if entries.any (·.tag == tag) then .error .dynamicSegmentMalformed
  else do
    classifyDynamicTag ⟨tag, value⟩
    if maxDynamicTags ≤ entries.length then .error .dynamicSegmentMalformed
    else .ok (entries ++ [⟨tag, value⟩], false)

/-- A flag that must have one value when it is there. -/
def checkDynamicFlag (tag : Nat) (permitted : Nat → Bool) : Checked Unit :=
  match dynamicValue entries tag with
  | some value => if permitted value then .ok () else .error .unsupportedDynamicTag
  | none => .ok ()

def validateDynamicFlags (elfType : Nat) : Checked Unit := do
  checkDynamicFlag entries dtDebug (· == 0)
  checkDynamicFlag entries dtBindNow (· == 0)
  checkDynamicFlag entries dtFlags (· == dfBindNow)
  checkDynamicFlag entries dtFlags1 fun value =>
    value &&& (2 ^ 64 - 1 - (df1Now ||| df1Pie)) == 0 &&
      !(elfType == etDyn && value &&& df1Pie == 0)

def validatePair (first second : Nat) : Checked Unit :=
  if (dynamicValue entries first).isSome ≠ (dynamicValue entries second).isSome then
    .error .dynamicSegmentMalformed
  else .ok ()

def validateTriple (first second third : Nat) : Checked Unit :=
  if ([first, second, third].countP fun tag => (dynamicValue entries tag).isSome) ∈
    [0, 3] then .ok ()
  else .error .dynamicSegmentMalformed

/-- The file bytes behind a range of addresses in the one segment with the flags asked for. -/
def mappedFileSlice (address size requiredFlags forbiddenFlags : Nat) : Checked (List UInt8) :=
  match loads.filter fun load => load.flags &&& requiredFlags == requiredFlags &&
      load.flags &&& forbiddenFlags == 0 &&
        orFalse (load.containsMemoryRange address size true) with
  | [] => .error .dynamicSegmentMalformed
  | [load] => do
    let start ← okOr .dynamicSegmentMalformed
      (checkedAdd load.offset (address - load.virtualAddress))
    let stop ← okOr .dynamicSegmentMalformed (checkedAdd start size)
    if stop > bytes.length then .error .dynamicSegmentMalformed
    else .ok ((bytes.drop start).take size)
  | _ => .error .segmentLayout

def isAllowedMappedAddress (address : Nat) : Bool :=
  decide (address ≤ maxUserAddress) && loads.any fun load => load.flags &&& pfR != 0 &&
    load.flags &&& (pfW ||| pfX) != (pfW ||| pfX) &&
    orFalse (load.containsMemoryRange address 1 false)

def isWritableTarget (address size : Nat) : Bool :=
  loads.any fun load => load.flags &&& pfW != 0 && load.flags &&& pfX == 0 &&
    orFalse (load.containsMemoryRange address size false)

def validateFunctionArray (addressTag sizeTag : Nat) : Checked Unit :=
  match dynamicValue entries addressTag, dynamicValue entries sizeTag with
  | some address, some size =>
    if size % 8 ≠ 0 then .error .dynamicSegmentMalformed
    else do
      let encoded ← mappedFileSlice bytes loads address size (pfR ||| pfW) pfX
      (chunksExact 8 encoded).forM fun item => do
        let function ← readU64 item 0
        if function ≠ 0 ∧ isExecutableAddress loads function = false then
          .error .dynamicSegmentMalformed
        else .ok ()
  | _, _ => .ok ()

/-- The tags of a relocation table and the size of its entries. -/
structure RelocationTable where
  addressTag : Nat
  sizeTag : Nat
  entryTag : Nat
  countTag : Nat
  entrySize : Nat

/-- The table with addends, or the one whose addends stand in the targets. -/
def relocationTable (withAddend : Bool) : RelocationTable :=
  if withAddend then ⟨dtRela, dtRelasz, dtRelaent, dtRelacount, 24⟩
  else ⟨dtRel, dtRelsz, dtRelent, dtRelcount, 16⟩

def validateRelocation (withAddend : Bool)
    (relativeCount : Nat) (entry : List UInt8 × Nat) : Checked Unit := do
  let (relocation, index) := entry
  let target ← readU64 relocation 0
  let info ← readU64 relocation 8
  let symbol := info / 2 ^ 32
  let kind := info % 2 ^ 32
  if symbol ≠ 0 ∨ kind ∉ [rX86Relative, rX86Irelative] then .error .unsupportedRelocation
  else if index < relativeCount ∧ kind ≠ rX86Relative then .error .relocationMalformed
  else if isWritableTarget loads target 8 = false then .error .relocationMalformed
  else do
    let addend ←
      (if withAddend then readU64 relocation 16
      else do
        let targetBytes ← mappedFileSlice bytes loads target 8 (pfR ||| pfW) pfX
        readU64 targetBytes 0)
    if 2 ^ 63 ≤ addend then .error .relocationMalformed
    else if kind = rX86Relative then
      if isAllowedMappedAddress loads addend then .ok () else .error .relocationMalformed
    else if isExecutableAddress loads addend then .ok () else .error .relocationMalformed

def validateRelocations (withAddend : Bool) : Checked Unit :=
  let table := relocationTable withAddend
  match dynamicValue entries table.addressTag with
  | none =>
    if (dynamicValue entries table.countTag).isSome then .error .relocationMalformed else .ok ()
  | some address => do
    let size ← okOr .relocationMalformed (dynamicValue entries table.sizeTag)
    let entrySize ← okOr .relocationMalformed (dynamicValue entries table.entryTag)
    if entrySize ≠ table.entrySize ∨ size % table.entrySize ≠ 0 then .error .relocationMalformed
    else do
      let encoded ← mappedFileSlice bytes loads address size pfR pfW
      let relativeCount := (dynamicValue entries table.countTag).getD 0
      if relativeCount > size / table.entrySize then .error .relocationMalformed
      else
        (chunksExact table.entrySize encoded).zipIdx.forM
          (validateRelocation bytes loads withAddend relativeCount)

/-- A table of `size` bytes in read-only memory, when both tags are there. -/
def checkTable (address size : Option Nat) (valid : Nat → Bool) : Checked Unit :=
  match address, size with
  | some address, some size =>
    if valid size = false then .error .dynamicSegmentMalformed
    else do
      let _ ← mappedFileSlice bytes loads address size pfR pfW
      .ok ()
  | _, _ => .ok ()

def checkCodeAddress (address : Option Nat) : Checked Unit :=
  match address with
  | some address =>
    if isExecutableAddress loads address then .ok () else .error .dynamicSegmentMalformed
  | none => .ok ()

def validateDynamicTables : Checked Unit := do
  validatePair entries dtStrtab dtStrsz
  validatePair entries dtSymtab dtSyment
  validateTriple entries dtRela dtRelasz dtRelaent
  validateTriple entries dtRel dtRelsz dtRelent
  validatePair entries dtInitArray dtInitArraysz
  validatePair entries dtFiniArray dtFiniArraysz
  checkTable bytes loads (dynamicValue entries dtStrtab) (dynamicValue entries dtStrsz) (· != 0)
  checkTable bytes loads (dynamicValue entries dtSymtab) (dynamicValue entries dtSyment) (· == 24)
  checkTable bytes loads (dynamicValue entries dtGnuHash) (some 16) fun _ => true
  checkCodeAddress loads (dynamicValue entries dtInit)
  checkCodeAddress loads (dynamicValue entries dtFini)
  validateFunctionArray bytes loads entries dtInitArray dtInitArraysz
  validateFunctionArray bytes loads entries dtFiniArray dtFiniArraysz
  validateRelocations bytes loads entries true
  validateRelocations bytes loads entries false

def validateDynamicSegment
    (dynamic : ProgramHeader) (elfType : Nat) : Checked (List DynamicEntry) :=
  if dynamic.flags ≠ pfR ||| pfW ∨ dynamic.fileSize = 0 ∨ dynamic.fileSize ≠ dynamic.memorySize ∨
      dynamic.fileSize % 16 ≠ 0 then .error .dynamicSegmentMalformed
  else do
    let segment := (bytes.drop dynamic.offset).take dynamic.fileSize
    let (entries, terminated) ← (chunksExact 16 segment).foldlM readDynamicEntry ([], false)
    if terminated = false then .error .dynamicSegmentMalformed
    else do
      validateDynamicFlags entries elfType
      validateDynamicTables bytes loads entries
      .ok entries

/-! ### The whole image -/

structure ElfHeader where
  elfType : Nat
  entrypoint : Nat
  programOffset : Nat
  tableSize : Nat
  entryCount : Nat
deriving DecidableEq

def ElfHeader.tableEnd (header : ElfHeader) : Nat := header.programOffset + header.tableSize

/-- What the validator has parsed. -/
structure StaticElf where
  header : ElfHeader
  loads : List ProgramHeader
  entries : List DynamicEntry
deriving DecidableEq

def parseHeader : Checked ElfHeader :=
  if bytes.length < elfHeaderBytes then .error .invalidElf
  else do
    let header := bytes.take elfHeaderBytes
    let machine ← readU16 header 18
    let version ← readU32 header 20
    let elfType ← readU16 header 16
    let flags ← readU32 header 48
    let headerSize ← readU16 header 52
    if header.take 7 ≠ [0x7f, 0x45, 0x4c, 0x46, 2, 1, 1] ∨ header.getD 7 0 ∉ [0, 3] ∨
        header.getD 8 0 ≠ 0 ∨ ((header.drop 9).take 7).any (· != 0) = true ∨
        machine ≠ elfMachineX86 ∨ version ≠ 1 ∨ elfType ∉ [etExec, etDyn] ∨ flags ≠ 0 ∨
        headerSize ≠ elfHeaderBytes then .error .unsupportedElf
    else do
      let entrypoint ← readU64 header 24
      let programOffset ← readU64 header 32
      let entrySize ← readU16 header 54
      let entryCount ← readU16 header 56
      if programOffset < elfHeaderBytes ∨ entrySize ≠ elfProgramHeaderBytes ∨ entryCount = 0 ∨
          entryCount > maxProgramHeaders then .error .programHeaderBounds
      else do
        let tableEnd ← okOr .programHeaderBounds (checkedAdd programOffset (entrySize * entryCount))
        if tableEnd > bytes.length then .error .programHeaderBounds
        else .ok ⟨elfType, entrypoint, programOffset, entrySize * entryCount, entryCount⟩

def parsePrograms (header : ElfHeader) : Checked (List ProgramHeader) :=
  (List.range header.entryCount).mapM fun index => do
    let parsed ← parseProgram bytes (header.programOffset + index * elfProgramHeaderBytes)
    validateProgramBounds bytes parsed
    .ok parsed

def validateSealedStaticElf : Checked StaticElf := do
  let header ← parseHeader bytes
  let programs ← parsePrograms bytes header
  let loads := programs.filter (·.kind == ptLoad)
  validateLoadSegments loads header.programOffset header.tableEnd header.entrypoint
  validateAuxiliarySegments programs loads header.programOffset header.tableSize
  match programs.filter (·.kind == ptDynamic) with
  | [] =>
    if header.elfType = etDyn then .error .dynamicSegmentMalformed else .ok ⟨header, loads, []⟩
  | [dynamic] => do
    let entries ← validateDynamicSegment bytes loads dynamic header.elfType
    .ok ⟨header, loads, entries⟩
  | _ => .error .dynamicSegmentMalformed

end Fe2o3.StaticExecutable
