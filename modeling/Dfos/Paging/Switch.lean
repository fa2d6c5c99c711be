import Dfos.Paging.Kernel

/-!
# Switching and destroying address spaces

The part of the paging interface that decides what CR3 holds.  `current_space`
is one variable for the whole machine, CR3 is a register of each CPU, and a
call writes the register of the CPU it runs on.  Only the space records are
kept here: the tables of a space play no part in which space is loaded.
-/

namespace Dfos.Paging

open Dfos.Pmm (pmmNumaNodeAny)

/-- The records of the spaces, the two space variables, and CR3 of each CPU. -/
structure AddressSpaces where
  pagingSpaces : Nat → PagingSpace
  kernelSpace : Option Nat
  currentSpace : Option Nat
  cr3 : Nat → Nat

/-- The value a space is loaded with. -/
def AddressSpaces.root (a : AddressSpaces) (space : Nat) : Nat :=
  (a.pagingSpaces space).rootPhysical &&& 0xFFFFF000

/-- `paging_switch_space` on CPU `cpu`. -/
def pagingSwitchSpace (a : AddressSpaces) (cpu : Nat) : Option Nat → AddressSpaces
  | none => a
  | some space =>
      if ¬ (a.pagingSpaces space).inUse ∨ a.currentSpace = some space then a
      else { a with
        currentSpace := some space
        cr3 := Function.update a.cr3 cpu (a.root space) }

end Dfos.Paging
