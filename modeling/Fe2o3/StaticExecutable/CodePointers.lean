import Fe2o3.StaticExecutable.Loading

/-!
# Code pointers after relocation

The validator checks addends and tables of functions in the bytes of the file; a loader
reads them from the memory that it relocates.

An addend that stands in its entry is the one that was checked.  One that stands in its
target is, if no other entry writes there.  A word of a function table that no entry writes
to keeps the address of the file, without the load base.
-/

namespace Fe2o3.StaticExecutable

open Lib List
open Lib.Words

/-! ### Words of memory -/

/-- Two words have no byte in common. -/
def Apart (left right : Nat) : Prop := left + 8 ≤ right ∨ right + 8 ≤ left

namespace StaticElf

variable (elf : StaticElf) (bytes : List UInt8)

def target (relocation : Relocation) : Nat := wordAt (elf.fileEntry bytes relocation) 0

def kind (relocation : Relocation) : Nat := relocationKind (elf.fileEntry bytes relocation)

end StaticElf

variable {bytes slice : List UInt8} {elf : StaticElf} {load : ProgramHeader}
  {memory after : Memory} {base address target word : Nat} {relocation : Relocation}
  {resolve : Memory → Nat → Nat}

variable {i : Nat}

variable {done rest : List Relocation}

variable {order : List Relocation}

section

variable (h : Accepted bytes elf)
include h

end

end Fe2o3.StaticExecutable
