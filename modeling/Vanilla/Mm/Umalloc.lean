import Vanilla.Mm.Pmalloc

/-! # The bitmap allocator (`umalloc.c`)

Blocks of one size, and behind them a bitmap in which a one means free. The
descriptor is kept next to the memory it describes.
-/

namespace Vanilla.Mm

open ByteMemory

structure UmallocDesc where
  arena : Nat
  bitmap : Nat
  blockSize : Nat
  blockCount : Nat
  usedBlocks : Nat := 0
deriving DecidableEq, Repr

structure UmallocState where
  mm : MmState
  desc : UmallocDesc

def UmallocState.memory (state : UmallocState) : ByteMemory := state.mm.memory

def UmallocState.setMemory (state : UmallocState) (memory : ByteMemory) : UmallocState :=
  { state with mm := { state.mm with memory } }

def indexToAddr (desc : UmallocDesc) (index : Nat) : Nat :=
  u32 (desc.arena + u32 (desc.blockSize * index))

def addrToIndex (desc : UmallocDesc) (pointer : Nat) : Option Nat :=
  if pointer < desc.arena ∨ pointer ≥ desc.bitmap then none
  else
    let offset := u32Sub pointer desc.arena
    if offset % desc.blockSize ≠ 0 then none else some (offset / desc.blockSize)

/-- `desc->bitmap + word_offset` -/
def bitmapWord (desc : UmallocDesc) (word : Nat) : Nat := u32 (desc.bitmap + 4 * word)

def getBitmapValue (memory : ByteMemory) (desc : UmallocDesc) (index : Nat) : Nat :=
  if memory.load32 (bitmapWord desc (index / 32)) &&& (1 <<< (index % 32)) ≠ 0 then 1 else 0

def clearBitInBitmap (memory : ByteMemory) (desc : UmallocDesc) (index : Nat) : ByteMemory :=
  memory.store32 (bitmapWord desc (index / 32))
    (memory.load32 (bitmapWord desc (index / 32)) ||| (1 <<< (index % 32)))

/-- The inner loop of `get_first_free_index`: the first one in a word. -/
def firstFreeBit (bitmask : Nat) : Option Nat :=
  if bitmask = 0 then none
  else (List.range 32).find? fun bit => decide (bitmask &&& (1 <<< bit) ≠ 0)

/-- The outer loop: the first word with a one, and the bit. -/
def firstFree (memory : ByteMemory) (desc : UmallocDesc) : Option (Nat × Nat) :=
  (List.range (desc.blockCount / 32)).findSome? fun word =>
    (firstFreeBit (memory.load32 (bitmapWord desc word))).map fun bit => (word, bit)

def getFirstFreeIndex : Exec UmallocState (Option Nat) := do
  let state ← get
  match firstFree state.memory state.desc with
  | none => return none
  | some (word, bit) =>
      let bitmask := state.memory.load32 (bitmapWord state.desc word)
      set (state.setMemory (state.memory.store32 (bitmapWord state.desc word)
        (bitmask &&& (0xFFFFFFFF ^^^ (1 <<< bit)))))
      return some (32 * word + bit)

/-- `(block_count + 32) & ~(u32)(32 - 1)` -/
def alignedCount (blockCount : Nat) : Nat := u32 (blockCount + 32) &&& 0xFFFFFFE0

def bitmapSize (blockCount : Nat) : Nat :=
  if blockCount % 8 ≠ 0 then blockCount / 8 + 1 else blockCount / 8

def pagesFor (total : Nat) : Nat := if total % 512 ≠ 0 then total / 512 + 1 else total / 512

/-- The part of `umalloc_new` after the allocation. -/
def umallocInit (arena arenaSize blockSize blockCount pages : Nat) :
    Exec MmState UmallocDesc := do
  if arena = 0 then
    Exec.panic "Can not make ualloc"
  modify fun state =>
    { state with memory := fill 0xFF state.memory arena (u32 (pages * 512)) }
  return { arena, bitmap := u32 (arena + arenaSize), blockSize, blockCount }

/-- `umalloc_new`, with the descriptor it fills in. -/
def umallocNew (blockSize blockCount : Nat) (bank : PhysmemE) : Exec MmState UmallocDesc := do
  let blockCount := alignedCount blockCount
  let arenaSize := u32 (blockCount * blockSize)
  let pages := pagesFor (u32 (arenaSize + bitmapSize blockCount))
  let arena ← pmalloc pages bank
  umallocInit arena arenaSize blockSize blockCount pages

/-- `_umalloc` -/
def umalloc : Exec UmallocState Nat := do
  match ← getFirstFreeIndex with
  | none => Exec.panic "ups"
  | some index =>
      let state ← get
      set { state with desc.usedBlocks := u32 (state.desc.usedBlocks + 1) }
      return indexToAddr state.desc index

def ucalloc : Exec UmallocState Nat := do
  let pointer ← umalloc
  modify fun state =>
    state.setMemory (fill 0x00 state.memory pointer state.desc.blockSize)
  return pointer

def ufree (pointer : Nat) : Exec UmallocState Unit := do
  let state ← get
  match addrToIndex state.desc pointer with
  | none => Exec.panic "bfree failed"
  | some index =>
      if getBitmapValue state.memory state.desc index = 1 then
        Exec.panic "bfree failed"
      let state := state.setMemory (clearBitInBitmap state.memory state.desc index)
      set state
      if state.desc.usedBlocks ≠ 0 then
        set { state with desc.usedBlocks := state.desc.usedBlocks - 1 }
      else
        Exec.panic "bfree failed"

end Vanilla.Mm
