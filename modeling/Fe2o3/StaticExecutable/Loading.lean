import Fe2o3.StaticExecutable.Acceptance

/-!
# Loading and relocating an accepted image

The validator does not load anything.  This module says what a loader does with the
segments and the relocation tables: it maps each load segment page by page with its file
bytes followed by zeros, and then applies the relocations in some order, reading each
entry from the memory that it is writing to.  The theorem at the end says that the
validator's checks confine these writes, whatever the resolvers return.
-/

namespace Fe2o3.StaticExecutable

open Lib List
open Lib.Words

/-! ### The image -/

namespace ProgramHeader

variable (load : ProgramHeader)

/-- The addresses of the pages that a segment is mapped to. -/
def Maps (base address : Nat) : Prop :=
  base + load.pageStart ≤ address ∧ address < base + load.pageEnd

instance (base address : Nat) : Decidable (load.Maps base address) :=
  inferInstanceAs (Decidable (_ ∧ _))

/-- The bytes of the mapped pages, without the load base. -/
def byteAt (bytes : List UInt8) (address : Nat) : UInt8 :=
  if address < load.virtualAddress + load.fileSize then
    bytes.getD (alignDown load.offset loadPageBytes + (address - load.pageStart)) 0
  else 0

end ProgramHeader

/-- A byte for every mapped address. -/
abbrev Memory : Type := Nat → Option UInt8

def image (bytes : List UInt8) (loads : List ProgramHeader) (base : Nat) : Memory := fun address =>
  (loads.find? fun load => load.Maps base address).map fun load =>
    load.byteAt bytes (address - base)

/-- The bytes of a range, unless one of them is not mapped. -/
def fetch (memory : Memory) : Nat → Nat → Option (List UInt8)
  | _, 0 => some []
  | address, size + 1 => do
    let byte ← memory address
    let rest ← fetch memory (address + 1) size
    some (byte :: rest)

/-- Writes a word of eight bytes. -/
def store (memory : Memory) (address word : Nat) : Option Memory :=
  if ∀ i < 8, (memory (address + i)).isSome = true then
    some fun other =>
      if address ≤ other ∧ other < address + 8 then (leBytes 8 word)[other - address]?
      else memory other
  else none

/-! ### Relocations -/

/-- An entry of one of the two tables. -/
structure Relocation where
  withAddend : Bool
  index : Nat
deriving DecidableEq

def StaticElf.tableRelocations (elf : StaticElf) (withAddend : Bool) : List Relocation :=
  match dynamicValue elf.entries (relocationTable withAddend).addressTag,
      dynamicValue elf.entries (relocationTable withAddend).sizeTag with
  | some _, some size =>
    (List.range (size / (relocationTable withAddend).entrySize)).map (⟨withAddend, ·⟩)
  | _, _ => []

def StaticElf.relocations (elf : StaticElf) : List Relocation :=
  elf.tableRelocations true ++ elf.tableRelocations false

/-- The entry as it stands in memory now. -/
def StaticElf.entryOf (elf : StaticElf) (base : Nat) (memory : Memory) (relocation : Relocation) :
    Option (List UInt8) := do
  let table := relocationTable relocation.withAddend
  let address ← dynamicValue elf.entries table.addressTag
  fetch memory (base + (address + relocation.index * table.entrySize)) table.entrySize

/-- The entry as it stands in the file. -/
def StaticElf.fileEntry (elf : StaticElf) (bytes : List UInt8) (relocation : Relocation) :
    List UInt8 :=
  (elf.entryOf 0 (image bytes elf.loads 0) relocation).getD []

/-- The addend as it stands in memory now. -/
def Relocation.addendOf (relocation : Relocation) (base : Nat) (memory : Memory)
    (entry : List UInt8) : Option Nat :=
  if relocation.withAddend then some (wordAt entry 16)
  else (fetch memory (base + wordAt entry 0) 8).map ofLeBytes

/-- Applies one entry.  A resolver may return anything, depending on the memory. -/
def StaticElf.relocate (elf : StaticElf) (base : Nat) (resolve : Memory → Nat → Nat)
    (memory : Memory) (relocation : Relocation) : Option Memory := do
  let entry ← elf.entryOf base memory relocation
  let target := base + wordAt entry 0
  let addend ←
    (if relocation.withAddend then some (wordAt entry 16)
    else (fetch memory target 8).map ofLeBytes)
  let word :=
    if relocationKind entry = rX86Relative then base + addend else resolve memory (base + addend)
  store memory target word

variable {bytes slice : List UInt8} {elf : StaticElf} {load : ProgramHeader} {memory : Memory}
  {base address : Nat}

variable {relocation : Relocation}

theorem of_mem_relocations (h : relocation ∈ elf.relocations) :
    ∃ address size,
      dynamicValue elf.entries (relocationTable relocation.withAddend).addressTag = some address ∧
      dynamicValue elf.entries (relocationTable relocation.withAddend).sizeTag = some size ∧
      relocation.index < size / (relocationTable relocation.withAddend).entrySize := by
  obtain ⟨withAddend, h⟩ : ∃ withAddend, relocation ∈ elf.tableRelocations withAddend :=
    (mem_append.mp h).elim (fun h => ⟨_, h⟩) fun h => ⟨_, h⟩
  unfold StaticElf.tableRelocations at h
  split at h
  · rename_i address size haddress hsize
    obtain ⟨index, hindex, rfl⟩ := mem_map.mp h
    exact ⟨address, size, haddress, hsize, mem_range.mp hindex⟩
  · nomatch h

variable {size : Nat}

theorem mem_chunksExact {index : Nat} (h : index < slice.length / size) :
    (slice.drop (index * size)).take size ∈ chunksExact size slice :=
  mem_map.mpr ⟨index, mem_range.mpr h, rfl⟩

/-! ### Reading the image -/

theorem ProgramHeader.maps_of_le (hstart : load.virtualAddress ≤ address)
    (hend : address < load.virtualAddress + load.memorySize) : load.Maps base (base + address) := by
  simp only [Maps, pageStart, pageEnd, alignDown, loadPageBytes]
  omega

/-- Offsets and addresses of a segment have the same place in their page. -/
theorem LoadFits.byteAt_eq (h : LoadFits bytes load) (hstart : load.virtualAddress ≤ address)
    (hend : address < load.virtualAddress + load.fileSize) :
    some (load.byteAt bytes address) = bytes[load.offset + (address - load.virtualAddress)]? := by
  have hindex : alignDown load.offset loadPageBytes + (address - load.pageStart) =
      load.offset + (address - load.virtualAddress) := by
    have hcongruent := h.congruent
    simp only [ProgramHeader.pageStart, alignDown, loadPageBytes] at hcongruent ⊢
    omega
  have hbound : load.offset + (address - load.virtualAddress) < bytes.length := by
    have hfile := h.fileEnd
    omega
  rw [ProgramHeader.byteAt, if_pos hend, hindex, getD_eq_getElem?_getD,
    getElem?_eq_getElem hbound, Option.getD_some]

instance : Std.Symm PagesApart := ⟨fun _ _ => Or.symm⟩

variable {left right : ProgramHeader}

theorem Accepted.eq_of_maps (h : Accepted bytes elf) (hleft : left ∈ elf.loads)
    (hright : right ∈ elf.loads) (hmaps : left.Maps base address)
    (hmaps' : right.Maps base address) : left = right := by
  by_contra hne
  have hapart := h.apart.forall hleft hright hne
  rw [PagesApart] at hapart
  rw [ProgramHeader.Maps] at hmaps hmaps'
  omega

theorem Accepted.image_eq (h : Accepted bytes elf) (hmem : load ∈ elf.loads)
    (hmaps : load.Maps base address) :
    image bytes elf.loads base address = some (load.byteAt bytes (address - base)) := by
  obtain ⟨found, hfound⟩ : ∃ found, elf.loads.find? (fun load => load.Maps base address) =
      some found :=
    Option.isSome_iff_exists.mp (find?_isSome.mpr ⟨load, hmem, decide_eq_true hmaps⟩)
  have hfoundMaps : found.Maps base address := by
    simpa using find?_some hfound
  obtain rfl := h.eq_of_maps (mem_of_find?_eq_some hfound) hmem hfoundMaps hmaps
  rw [image, hfound, Option.map_some]

theorem fetch_eq_some (h : ∀ i < slice.length, memory (address + i) = slice[i]?) :
    fetch memory address slice.length = some slice := by
  induction slice generalizing address with
  | nil => rfl
  | cons byte rest ih =>
    have hfirst : memory address = some byte := h 0 (Nat.zero_lt_succ _)
    have hrest : fetch memory (address + 1) rest.length = some rest := by
      apply ih
      intro i hi
      have hnext := h (i + 1) (Nat.succ_lt_succ hi)
      rw [Nat.add_assoc, Nat.add_comm 1 i, hnext, getElem?_cons_succ]
    rw [length_cons, fetch, hfirst, hrest]
    rfl

theorem exists_fetch (h : ∀ i < size, (memory (address + i)).isSome = true) :
    ∃ slice, fetch memory address size = some slice := by
  induction size generalizing address with
  | zero => exact ⟨[], rfl⟩
  | succ size ih =>
    obtain ⟨byte, hbyte⟩ := Option.isSome_iff_exists.mp (h 0 (Nat.zero_lt_succ _))
    obtain ⟨rest, hrest⟩ := @ih (address + 1) fun i hi => by
      rw [Nat.add_assoc, Nat.add_comm 1 i]
      exact h (i + 1) (Nat.succ_lt_succ hi)
    refine ⟨byte :: rest, ?_⟩
    rw [Nat.add_zero] at hbyte
    rw [fetch, hbyte, hrest]
    rfl

variable {start count : Nat}

theorem Backed.sub (h : Backed bytes load address slice) (hle : start + count ≤ slice.length) :
    Backed bytes load (address + start) ((slice.drop start).take count) := by
  obtain ⟨hstart, hend, hslice⟩ := h
  have hlength : ((slice.drop start).take count).length = count := by
    rw [length_take, length_drop]
    omega
  refine ⟨by omega, by omega, ?_⟩
  have hsub : load.offset + (address - load.virtualAddress) + start =
      load.offset + (address + start - load.virtualAddress) := by omega
  rw [hlength, hslice, drop_take, drop_drop, take_take, hsub,
    Nat.min_eq_left (by omega)]

theorem ReadOnly.sub {loads : List ProgramHeader} (h : ReadOnly bytes loads address slice)
    (hle : start + count ≤ slice.length) :
    ReadOnly bytes loads (address + start) ((slice.drop start).take count) := by
  obtain ⟨load, hmem, hflags, hbacked⟩ := h
  exact ⟨load, hmem, hflags, hbacked.sub hle⟩

/-- Where memory still is the image it holds the bytes of the file. -/
theorem Accepted.fetch_backed (h : Accepted bytes elf) (hmem : load ∈ elf.loads)
    (hbacked : Backed bytes load address slice)
    (hsame : ∀ i < slice.length, memory (base + (address + i)) =
      image bytes elf.loads base (base + (address + i))) :
    fetch memory (base + address) slice.length = some slice := by
  obtain ⟨hstart, hend, hslice⟩ := hbacked
  apply fetch_eq_some
  intro i hi
  have hfits := h.loads load hmem
  have hmaps : load.Maps base (base + (address + i)) := by
    have hsize := hfits.fileSize
    exact ProgramHeader.maps_of_le (by omega) (by omega)
  rw [Nat.add_assoc, hsame i hi, h.image_eq hmem hmaps, Nat.add_sub_cancel_left,
    hfits.byteAt_eq (by omega) (by omega)]
  have hindex : load.offset + (address + i - load.virtualAddress) =
      load.offset + (address - load.virtualAddress) + i := by omega
  rw [hindex, ← getElem?_drop, ← getElem?_take_of_lt hi, ← hslice]

/-! ### What relocation keeps -/

/-- The invariant of a run: nothing is mapped or unmapped, and only segments that are writable
    and not executable change. -/
structure Kept (bytes : List UInt8) (elf : StaticElf) (base : Nat) (memory : Memory) : Prop where
  mapped : ∀ address, (memory address).isSome = (image bytes elf.loads base address).isSome
  unchanged : ∀ load ∈ elf.loads, ¬load.Writable ∨ load.Executable →
    ∀ address, load.Maps base address → memory address = image bytes elf.loads base address

theorem kept_image : Kept bytes elf base (image bytes elf.loads base) :=
  ⟨fun _ => rfl, fun _ _ _ _ _ => rfl⟩

variable {target : Nat}

section Run

variable (h : Accepted bytes elf) (hkept : Kept bytes elf base memory)

include h hkept

theorem fetch_of_readOnly (hread : ReadOnly bytes elf.loads address slice) :
    fetch memory (base + address) slice.length = some slice := by
  obtain ⟨load, hmem, hflags, hbacked⟩ := hread
  refine h.fetch_backed hmem hbacked fun i hi => ?_
  have hsize := (h.loads load hmem).fileSize
  obtain ⟨hstart, hend, -⟩ := hbacked
  exact hkept.unchanged load hmem (.inl hflags) _
    (ProgramHeader.maps_of_le (by omega) (by omega))

theorem fetch_of_mappedFileSlice
    (hslice : mappedFileSlice bytes elf.loads address size pfR pfW = .ok slice) :
    fetch memory (base + address) size = some slice := by
  obtain ⟨hlength, hread⟩ := readOnly_of_mappedFileSlice hslice
  rw [← hlength]
  exact fetch_of_readOnly h hkept hread

theorem fetch_headers : ∃ load ∈ elf.loads, load.offset = 0 ∧
    fetch memory (base + load.virtualAddress) elf.header.tableEnd =
      some (bytes.take elf.header.tableEnd) := by
  obtain ⟨load, hmem, hflags, hoffset, hend⟩ := h.headers
  have hlength : (bytes.take elf.header.tableEnd).length = elf.header.tableEnd := by
    have hfile := (h.loads load hmem).fileEnd
    rw [length_take]
    omega
  have hread : ReadOnly bytes elf.loads load.virtualAddress (bytes.take elf.header.tableEnd) := by
    refine ⟨load, hmem, hflags, Nat.le_refl _, by omega, ?_⟩
    rw [hlength, hoffset, Nat.sub_self, drop_zero]
  have hfetch := fetch_of_readOnly h hkept hread
  rw [hlength] at hfetch
  exact ⟨load, hmem, hoffset, hfetch⟩

omit hkept in
theorem exists_entry (hmem : relocation ∈ elf.relocations) :
    ∃ entry, EntryFits bytes elf.loads relocation.withAddend entry ∧ ∀ {base memory},
      Kept bytes elf base memory → elf.entryOf base memory relocation = some entry := by
  obtain ⟨address, size, haddress, hsize, hindex⟩ := of_mem_relocations hmem
  obtain ⟨encoded, hencoded, hfits⟩ := h.relocations _ address size haddress hsize
  obtain ⟨hlength, hread⟩ := readOnly_of_mappedFileSlice hencoded
  have hend := Nat.mul_le_of_le_div _ _ _ hindex
  rw [Nat.succ_mul, ← hlength] at hend
  refine ⟨_, hfits _ (mem_chunksExact (hlength.symm ▸ hindex)), fun hkept => ?_⟩
  have hfetch := fetch_of_readOnly h hkept (hread.sub hend)
  rw [length_take, length_drop, Nat.min_eq_left (by omega)] at hfetch
  rw [StaticElf.entryOf]
  simp only [haddress]
  exact hfetch

/-- The entry read from memory is the one of the file, which was validated. -/
theorem entryOf_eq (hmem : relocation ∈ elf.relocations) :
    elf.entryOf base memory relocation = some (elf.fileEntry bytes relocation) ∧
      EntryFits bytes elf.loads relocation.withAddend (elf.fileEntry bytes relocation) := by
  obtain ⟨entry, hfits, hentry⟩ := exists_entry h hmem
  rw [StaticElf.fileEntry, hentry kept_image]
  exact ⟨hentry hkept, hfits⟩

theorem relocate_eq_store (resolve : Memory → Nat → Nat) (hmem : relocation ∈ elf.relocations)
    {addend : Nat}
    (haddend : relocation.addendOf base memory (elf.fileEntry bytes relocation) = some addend) :
    elf.relocate base resolve memory relocation =
      store memory (base + wordAt (elf.fileEntry bytes relocation) 0)
        (if relocationKind (elf.fileEntry bytes relocation) = rX86Relative then base + addend
        else resolve memory (base + addend)) := by
  unfold Relocation.addendOf at haddend
  rw [StaticElf.relocate, (entryOf_eq h hkept hmem).1]
  simp only [Option.bind_eq_bind, Option.bind_some, haddend]

/-- The word of a data address is mapped. -/
theorem isSome_of_inData (htarget : InData elf.loads target) :
    ∀ i < 8, (memory (base + target + i)).isSome = true := by
  obtain ⟨load, hload, -, -, hstart, hend⟩ := htarget
  intro i hi
  have hmaps : load.Maps base (base + target + i) := by
    rw [Nat.add_assoc]
    exact ProgramHeader.maps_of_le (by omega) (by omega)
  rw [hkept.mapped, h.image_eq hload hmaps]
  rfl

/-- A store to a data address keeps the invariant. -/
theorem store_kept (htarget : InData elf.loads target) (word : Nat) :
    ∃ after, store memory (base + target) word = some after ∧ Kept bytes elf base after := by
  have hmapped := isSome_of_inData h hkept htarget
  refine ⟨_, if_pos hmapped, ?_, ?_⟩
  · intro address
    by_cases hin : base + target ≤ address ∧ address < base + target + 8
    · have hlt : address - (base + target) < (leBytes 8 word).length := by
        rw [length_leBytes]
        omega
      have hsome := hmapped (address - (base + target)) (by omega)
      rw [Nat.add_sub_cancel' hin.1, hkept.mapped] at hsome
      rw [if_pos hin, hsome, getElem?_eq_getElem hlt]
      rfl
    · rw [if_neg hin]
      exact hkept.mapped address
  · intro other hother hflags address haddress
    obtain ⟨load, hload, hwritable, hexecutable, hstart, hend⟩ := htarget
    have hout : ¬(base + target ≤ address ∧ address < base + target + 8) := by
      intro hin
      obtain ⟨inner, rfl⟩ := Nat.exists_eq_add_of_le (Nat.le_trans (Nat.le_add_right ..) hin.1)
      have hmaps : load.Maps base (base + inner) :=
        ProgramHeader.maps_of_le (by omega) (by omega)
      obtain rfl := h.eq_of_maps hload hother hmaps haddress
      obtain hreadOnly | hcode := hflags
      · exact hreadOnly hwritable
      · exact hexecutable hcode
    rw [if_neg hout]
    exact hkept.unchanged other hother hflags address haddress

theorem exists_store (resolve : Memory → Nat → Nat) (hmem : relocation ∈ elf.relocations) :
    ∃ word, elf.relocate base resolve memory relocation =
      store memory (base + wordAt (elf.fileEntry bytes relocation) 0) word := by
  have htarget := (entryOf_eq h hkept hmem).2.target
  obtain ⟨old, hold⟩ := exists_fetch (isSome_of_inData h hkept htarget)
  obtain ⟨addend, haddend⟩ : ∃ addend,
      relocation.addendOf base memory (elf.fileEntry bytes relocation) = some addend := by
    rw [Relocation.addendOf, hold]
    split
    · exact ⟨_, rfl⟩
    · exact ⟨_, rfl⟩
  exact ⟨_, relocate_eq_store h hkept resolve hmem haddend⟩

/-- One relocation succeeds and keeps the invariant. -/
theorem relocate_kept (resolve : Memory → Nat → Nat) (hmem : relocation ∈ elf.relocations) :
    ∃ after, elf.relocate base resolve memory relocation = some after ∧
      Kept bytes elf base after := by
  obtain ⟨word, hword⟩ := exists_store h hkept resolve hmem
  rw [hword]
  exact store_kept h hkept (entryOf_eq h hkept hmem).2.target word

end Run

theorem run_kept (h : Accepted bytes elf) (resolve : Memory → Nat → Nat) {order : List Relocation}
    (horder : ∀ relocation ∈ order, relocation ∈ elf.relocations)
    (hkept : Kept bytes elf base memory) :
    ∃ after, order.foldlM (elf.relocate base resolve) memory = some after ∧
      Kept bytes elf base after := by
  induction order generalizing memory with
  | nil => exact ⟨memory, rfl, hkept⟩
  | cons relocation rest ih =>
    obtain ⟨hfirst, hrest⟩ := forall_mem_cons.mp horder
    obtain ⟨next, hnext, hkept⟩ := relocate_kept h hkept resolve hfirst
    obtain ⟨after, hafter, hkept⟩ := ih hrest hkept
    refine ⟨after, ?_, hkept⟩
    rw [foldlM_cons, hnext]
    exact hafter

/-! ### Confinement -/

/-- What holds of the memory at every moment of a run. -/
structure Confined (bytes : List UInt8) (elf : StaticElf) (base : Nat) (memory : Memory) :
    Prop where
  unchanged : ∀ load ∈ elf.loads, ¬load.Writable ∨ load.Executable →
    ∀ address, load.Maps base address → memory address = image bytes elf.loads base address
  headers : ∃ load ∈ elf.loads, load.offset = 0 ∧
    fetch memory (base + load.virtualAddress) elf.header.tableEnd =
      some (bytes.take elf.header.tableEnd)
  strings : ∀ address size, dynamicValue elf.entries dtStrtab = some address →
    dynamicValue elf.entries dtStrsz = some size →
    ∃ slice, mappedFileSlice bytes elf.loads address size pfR pfW = .ok slice ∧
      fetch memory (base + address) size = some slice
  firstSymbol : ∀ address, dynamicValue elf.entries dtSymtab = some address →
    ∃ slice, mappedFileSlice bytes elf.loads address 24 pfR pfW = .ok slice ∧
      fetch memory (base + address) 24 = some slice
  tables : ∀ withAddend address size,
    dynamicValue elf.entries (relocationTable withAddend).addressTag = some address →
    dynamicValue elf.entries (relocationTable withAddend).sizeTag = some size →
    ∃ encoded, mappedFileSlice bytes elf.loads address size pfR pfW = .ok encoded ∧
      fetch memory (base + address) size = some encoded
  /-- The next write, whichever entry it is for. -/
  writes : ∀ relocation ∈ elf.relocations, ∃ entry, elf.entryOf base memory relocation =
    some entry ∧
    ∃ load ∈ elf.loads, load.Writable ∧ ¬load.Executable ∧
      base + load.virtualAddress ≤ base + wordAt entry 0 ∧
      base + wordAt entry 0 + 8 ≤ base + (load.virtualAddress + load.memorySize)
  resolvers : ∀ relocation ∈ elf.relocations, ∀ entry, relocation.withAddend = true →
    elf.entryOf base memory relocation = some entry → relocationKind entry = rX86Irelative →
    InCode elf.loads (wordAt entry 16)

theorem Kept.confined (h : Accepted bytes elf) (hkept : Kept bytes elf base memory) :
    Confined bytes elf base memory where
  unchanged := hkept.unchanged
  headers := fetch_headers h hkept
  strings address size haddress hsize := by
    obtain ⟨slice, hslice⟩ := h.strings address size haddress hsize
    exact ⟨slice, hslice, fetch_of_mappedFileSlice h hkept hslice⟩
  firstSymbol address haddress := by
    obtain ⟨slice, hslice⟩ := h.symbols address 24 haddress rfl
    exact ⟨slice, hslice, fetch_of_mappedFileSlice h hkept hslice⟩
  tables withAddend address size haddress hsize := by
    obtain ⟨encoded, hencoded, -⟩ := h.relocations withAddend address size haddress hsize
    exact ⟨encoded, hencoded, fetch_of_mappedFileSlice h hkept hencoded⟩
  writes relocation hmem := by
    obtain ⟨hentry, hfits⟩ := entryOf_eq h hkept hmem
    obtain ⟨load, hload, hwritable, hexecutable, hstart, hend⟩ := hfits.target
    exact ⟨_, hentry, load, hload, hwritable, hexecutable, by omega, by omega⟩
  resolvers relocation hmem entry hwith hentry hkind := by
    obtain ⟨hfound, hfits⟩ := entryOf_eq h hkept hmem
    cases hfound.symm.trans hentry
    rw [hwith] at hfits
    obtain ⟨_, rfl, ⟨hrelative, -⟩ | ⟨-, hcode⟩⟩ := hfits.addend
    · exact absurd (hrelative.symm.trans hkind) (by decide)
    · exact hcode

theorem page_ne (hbase : loadPageBytes ∣ base) (hapart : PagesApart left right) {other : Nat}
    (hleft : left.Maps base address) (hright : right.Maps base other) :
    address / loadPageBytes ≠ other / loadPageBytes := by
  obtain ⟨page, rfl⟩ := hbase
  simp only [PagesApart, ProgramHeader.Maps, ProgramHeader.pageStart, ProgramHeader.pageEnd,
    alignDown, loadPageBytes] at hapart hleft hright ⊢
  omega

/-- Applying the relocations of an accepted image, in any order and any number of times, changes
    only segments that are writable and not executable. -/
theorem relocation_writes_confined {bytes : List UInt8} {elf : StaticElf}
    (h : validateSealedStaticElf bytes = .ok elf) {base : Nat} (hbase : loadPageBytes ∣ base)
    (resolve : Memory → Nat → Nat) :
    (elf.loads.Pairwise fun left right => ∀ address other, left.Maps base address →
      right.Maps base other → address / loadPageBytes ≠ other / loadPageBytes) ∧
    (∀ load ∈ elf.loads, ¬(load.Writable ∧ load.Executable)) ∧
    (∀ order : List Relocation, (∀ relocation ∈ order, relocation ∈ elf.relocations) →
      ∃ memory, order.foldlM (elf.relocate base resolve) (image bytes elf.loads base) =
        some memory ∧ Confined bytes elf base memory) ∧
    InCode elf.loads elf.header.entrypoint ∧
    (∀ address, dynamicValue elf.entries dtInit = some address → InCode elf.loads address) ∧
    (∀ address, dynamicValue elf.entries dtFini = some address → InCode elf.loads address) := by
  have h := accepted_of_validate h
  refine ⟨h.apart.imp fun hapart _ _ => page_ne hbase hapart,
    fun load hload => (h.loads load hload).separate, ?_, h.entrypoint, h.init, h.fini⟩
  intro order horder
  obtain ⟨memory, hrun, hkept⟩ := run_kept h resolve horder kept_image
  exact ⟨memory, hrun, hkept.confined h⟩

def encodeProgram (program : ProgramHeader) : List UInt8 :=
  [leBytes 4 program.kind, leBytes 4 program.flags, leBytes 8 program.offset,
    leBytes 8 program.virtualAddress, leBytes 8 program.virtualAddress, leBytes 8 program.fileSize,
    leBytes 8 program.memorySize, leBytes 8 program.alignment].flatten

/-- A read-only segment with the headers and two relocations, a segment of code, and one of data
    that starts with the dynamic entries. -/
def smallElf : StaticElf where
  header := ⟨etDyn, 0x1200, 64, 280, 5⟩
  loads := [⟨ptLoad, pfR, 0, 0, 0x200, 0x200, 0x1000⟩,
    ⟨ptLoad, pfR ||| pfX, 0x200, 0x1200, 0x10, 0x10, 0x1000⟩,
    ⟨ptLoad, pfR ||| pfW, 0x210, 0x2210, 0x50, 0x80, 0x1000⟩]
  entries := [⟨dtRela, 0x158⟩, ⟨dtRelasz, 48⟩, ⟨dtRelaent, 24⟩]

def smallImage : List UInt8 :=
  [[0x7f, 0x45, 0x4c, 0x46, 2, 1, 1, 0, 0, 0, 0, 0, 0, 0, 0, 0],
    leBytes 2 smallElf.header.elfType, leBytes 2 elfMachineX86, leBytes 4 1,
    leBytes 8 smallElf.header.entrypoint, leBytes 8 smallElf.header.programOffset, leBytes 8 0,
    leBytes 4 0, leBytes 2 elfHeaderBytes, leBytes 2 elfProgramHeaderBytes,
    leBytes 2 smallElf.header.entryCount, leBytes 6 0,
    smallElf.loads.flatMap encodeProgram,
    encodeProgram ⟨ptGnuStack, pfR ||| pfW, 0, 0, 0, 0, 16⟩,
    encodeProgram ⟨ptDynamic, pfR ||| pfW, 0x210, 0x2210, 64, 64, 8⟩,
    leBytes 8 0x2250, leBytes 8 rX86Relative, leBytes 8 0x1200,
    leBytes 8 0x2258, leBytes 8 rX86Irelative, leBytes 8 0x1204,
    List.replicate 0x78 0, List.replicate 0x10 0x90,
    smallElf.entries.flatMap fun entry => leBytes 8 entry.tag ++ leBytes 8 entry.value,
    List.replicate 0x20 0].flatten

theorem relocation_writes_confined_small :
    validateSealedStaticElf smallImage = .ok smallElf ∧ smallElf.relocations.length = 2 ∧
    ∃ memory, smallElf.relocations.foldlM (smallElf.relocate 0x10000 fun _ address => address)
        (image smallImage smallElf.loads 0x10000) = some memory ∧
      Confined smallImage smallElf 0x10000 memory := by
  have h : validateSealedStaticElf smallImage = .ok smallElf := by decide +kernel
  have hconfined := @relocation_writes_confined _ _ h 0x10000 (by decide) fun _ address => address
  exact ⟨h, rfl, hconfined.2.2.1 smallElf.relocations fun _ hmem => hmem⟩

end Fe2o3.StaticExecutable
