import Vanilla.Mm.Mm

/-! # Allocation in pages (`pmalloc.c`) -/

namespace Vanilla.Mm

def pmalloc (count : Nat) (bank : PhysmemE) : Exec MmState Nat := do
  let pointer ← mmAlloc (u32 (count * 512)) bank
  if pointer = 0 then
    Exec.panic "palloc failed"
  return pointer

end Vanilla.Mm
