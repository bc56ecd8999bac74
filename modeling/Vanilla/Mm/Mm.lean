import Mathlib.Logic.Function.Basic
import Vanilla.Foundation.ByteMemory
import Vanilla.Foundation.Exec
import Vanilla.Foundation.Intervals
import Vanilla.Foundation.Word

/-! # The memory manager (`mm.c`)

Five banks, each with a first-fit free list whose headers live in the managed
memory itself. A header is a `struct mm_node`: the `next` pointer at offset 0
and, at offset 4, a word holding the bank index in its upper 4 bits and the
block size in its lower 28.
-/

namespace Vanilla.Mm

open ByteMemory

inductive PhysmemE where
  | sram
  | dramBank1
  | dramBank2
  | dramBank3
  | dramBank4
deriving DecidableEq, Repr

def PhysmemE.index : PhysmemE → Nat
  | .sram => 0
  | .dramBank1 => 1
  | .dramBank2 => 2
  | .dramBank3 => 3
  | .dramBank4 => 4

/-- `struct physmem`, less its name. The `root_obj` node itself is in memory,
at the address kept in `rootNode`. -/
structure Physmem where
  startAddr : Nat
  endAddr : Nat
  size : Nat := 0
  allocated : Nat := 0
  minAlloc : Nat
  rootNode : Nat := 0
  lastNode : Nat := 0
deriving DecidableEq, Repr

structure MmState where
  memory : ByteMemory
  physicalMemories : PhysmemE → Physmem

/-- What the linker script decides: where the heap section starts and where
the `root_obj` of each bank lies. The heap follows `.data` in SRAM. -/
structure Linker where
  heapStart : Nat
  rootObj : PhysmemE → Nat
  heapAligned : 8 ∣ heapStart
  heapFits : heapStart + 262144 ≤ 0x20460000
  rootInSram : ∀ bank, 0x20400020 ≤ rootObj bank
  rootBelowHeap : ∀ bank, rootObj bank + 8 ≤ heapStart
  rootApart : ∀ left right, left ≠ right →
    rootObj left + 8 ≤ rootObj right ∨ rootObj right + 8 ≤ rootObj left

def Linker.heapEnd (linker : Linker) : Nat := linker.heapStart + 262144

def sizeofMmNode : Nat := 8

/-! ## Header fields -/

def nodeNext (memory : ByteMemory) (node : Nat) : Nat := memory.load32 node

def nodeSize (memory : ByteMemory) (node : Nat) : Nat := memory.load32 (node + 4)

def setNext (memory : ByteMemory) (node value : Nat) : ByteMemory :=
  memory.store32 node value

def setSize (memory : ByteMemory) (node value : Nat) : ByteMemory :=
  memory.store32 (node + 4) value

def mmGetRegion (size : Nat) : Nat := (size >>> 28) &&& 0b1111

def mmSetRegion (size physmem : Nat) : Nat := (size &&& 0x0FFFFFFF) ||| physmem <<< 28

def mmGetSize (size : Nat) : Nat := size &&& 0xFFFFFFF

def mmSetSize (size newSize : Nat) : Nat := (size &&& 0xF0000000) ||| newSize

/-- `value & ~(MM_ALIGN - 1)` -/
def alignDown (value : Nat) : Nat := value &&& 0xFFFFFFF8

/-- The adjustment made to a start address and to a request size. -/
def alignUp (value : Nat) : Nat :=
  if value &&& 7 ≠ 0 then alignDown (u32 (value + 8)) else value

/-! ## Initialization -/

/-- The compiled-in `physical_memories` entries. -/
def physmemDefault : PhysmemE → Physmem
  | .sram => { startAddr := 0, endAddr := 0, minAlloc := 16 }
  | .dramBank1 => { startAddr := 0x70000000, endAddr := 0x7007FFFF, minAlloc := 256 }
  | .dramBank2 => { startAddr := 0x70080000, endAddr := 0x700FFFFF, minAlloc := 256 }
  | .dramBank3 => { startAddr := 0x70100000, endAddr := 0x7017FFFF, minAlloc := 256 }
  | .dramBank4 => { startAddr := 0x70180000, endAddr := 0x701FFFFF, minAlloc := 256 }

/-- A bank whose addresses are zero gets those of the heap section. -/
def placeHeap (linker : Linker) (physmem : Physmem) : Physmem :=
  if physmem.startAddr = 0 ∧ physmem.endAddr = 0 then
    { physmem with startAddr := linker.heapStart, endAddr := linker.heapEnd }
  else physmem

/-- One round of the loop in `mm_init`. -/
def mmInitBank (linker : Linker) (state : MmState) (bank : PhysmemE) : MmState :=
  let physmem := placeHeap linker (state.physicalMemories bank)
  -- erase the memory; the last byte of an odd-sized bank stays as it is
  let memory := fill 0 state.memory physmem.startAddr
    (u32Sub physmem.endAddr physmem.startAddr)
  let physmem := { physmem with
    startAddr := alignUp physmem.startAddr
    endAddr := alignDown physmem.endAddr }
  let nodeStart := physmem.startAddr
  let nodeEnd := u32Sub physmem.endAddr sizeofMmNode
  let physmem := { physmem with
    size := u32Sub (u32Sub physmem.endAddr sizeofMmNode) physmem.startAddr }
  let memory := setSize memory (linker.rootObj bank) 0
  let memory := setNext memory (linker.rootObj bank) nodeStart
  let physmem := { physmem with lastNode := nodeEnd, rootNode := linker.rootObj bank }
  let memory := setNext memory nodeStart nodeEnd
  let memory := setSize memory nodeStart (mmSetSize 0 physmem.size)
  let memory := setSize memory nodeStart (mmSetRegion (nodeSize memory nodeStart) bank.index)
  let memory := setNext memory nodeEnd 0
  let memory := setSize memory nodeEnd 0
  { memory
    physicalMemories :=
      Function.update state.physicalMemories bank { physmem with allocated := 0 } }

/-- The entries of `physical_memories` before its `NULL`. -/
def physicalMemoryList : List PhysmemE :=
  [.sram, .dramBank1, .dramBank2, .dramBank3, .dramBank4]

/-- `mm_init` on a machine whose memory holds anything. -/
def mmInit (linker : Linker) (memory : ByteMemory) : MmState :=
  physicalMemoryList.foldl (mmInitBank linker)
    { memory, physicalMemories := physmemDefault }

/-! ## The free list -/

/-- `while (iter->next < node) iter = iter->next;` -/
def seekBefore (memory : ByteMemory) (node : Nat) : Nat → Nat → Option Nat
  | 0, _ => none
  | rounds + 1, iter =>
      if nodeNext memory iter < node then
        seekBefore memory node rounds (nodeNext memory iter)
      else some iter

/-- Merge the inserted node into the block that ends where it starts. -/
def mergeBackward (memory : ByteMemory) (iter node : Nat) : ByteMemory × Nat :=
  let iterSize := mmGetSize (nodeSize memory iter)
  let insertSize := mmGetSize (nodeSize memory node)
  if u32 (iter + iterSize) = node then
    (setSize memory iter (nodeSize memory iter + insertSize), iter)
  else (memory, node)

/-- Merge the block after `iter` into the node that ends where it starts. The
last node is never merged. -/
def mergeForward (memory : ByteMemory) (iter node last : Nat) : ByteMemory :=
  let next := nodeNext memory iter
  let nextSize := mmGetSize (nodeSize memory next)
  let insertSize := mmGetSize (nodeSize memory node)
  if u32 (node + insertSize) = next then
    if next = last then setNext memory node last
    else
      let memory := setSize memory node (nodeSize memory node + nextSize)
      setNext memory node (nodeNext memory (nodeNext memory iter))
  else setNext memory node next

def mmListInsert (node root last : Nat) : Exec ByteMemory Unit := do
  let memory ← get
  if node < root ∨ last < node then
    Exec.panic "Memory list error"
  match seekBefore memory node loopRounds root with
  | none => Exec.fault .diverges
  | some iter =>
      let (memory, merged) := mergeBackward memory iter node
      let memory := mergeForward memory iter merged last
      if merged ≠ iter then
        set (setNext memory iter merged)
      else
        set memory

/-- The search loop of `mm_alloc`: the first block of at least `size` bytes, or
the last node, with the node before it. -/
def findFit (memory : ByteMemory) (size : Nat) : Nat → Nat → Nat → Option (Nat × Nat)
  | 0, _, _ => none
  | rounds + 1, iterPrev, iter =>
      if nodeNext memory iter ≠ 0 then
        if size ≤ mmGetSize (nodeSize memory iter) then some (iterPrev, iter)
        else findFit memory size rounds iter (nodeNext memory iter)
      else some (iterPrev, iter)

variable {State Value : Type}

def onMemory (body : Exec ByteMemory Value) : Exec MmState Value :=
  Exec.zoom MmState.memory (fun memory state => { state with memory }) body

def setPhysmem (bank : PhysmemE) (physmem : Physmem) : Exec MmState Unit :=
  modify fun state =>
    { state with physicalMemories := Function.update state.physicalMemories bank physmem }

/-- The block size behind a request: header included, at least the bank's
minimum, rounded up to 8. -/
def blockNeed (size minAlloc : Nat) : Nat :=
  let size := u32 (size + sizeofMmNode)
  let size := if size < minAlloc then minAlloc else size
  alignUp size

/-- The header of what a split leaves: tag first, over whatever the word held,
then the size. -/
def remainderHeader (bank : PhysmemE) (memory : ByteMemory) (newNode size : Nat) :
    ByteMemory :=
  let memory := setSize memory newNode (mmSetRegion (nodeSize memory newNode) bank.index)
  setSize memory newNode (mmSetSize (nodeSize memory newNode) size)

/-- The second half of `mm_alloc`: take the block `iter` out of the list and
split it when the rest can hold a block of its own. -/
def takeBlock (size : Nat) (bank : PhysmemE) (iterPrev iter : Nat) : Exec MmState Nat := do
  let state ← get
  let memory := state.memory
  let physmem := state.physicalMemories bank
  let currBlockSize := mmGetSize (nodeSize memory iter)
  let returnPtr := u32 (iter + sizeofMmNode)
  -- remove the current block from the list
  onMemory (set (setNext memory iterPrev (nodeNext memory iter)))
  if u32 (size + physmem.minAlloc) ≤ currBlockSize then
    let newNode := u32 (iter + size)
    onMemory (modify fun memory =>
      remainderHeader bank memory newNode (u32Sub currBlockSize size))
    setPhysmem bank { physmem with allocated := u32 (physmem.allocated + size) }
    onMemory (modify fun memory =>
      setSize memory iter (mmSetSize (nodeSize memory iter) size))
    onMemory (mmListInsert newNode physmem.rootNode physmem.lastNode)
  else
    setPhysmem bank { physmem with allocated := u32 (physmem.allocated + currBlockSize) }
  -- mark the memory as allocated
  onMemory (modify fun memory => setNext memory iter 0xC0DEBABE)
  return returnPtr

/-- `mm_alloc`; `NULL` is 0. -/
def mmAlloc (request : Nat) (bank : PhysmemE) : Exec MmState Nat := do
  let state ← get
  let memory := state.memory
  let physmem := state.physicalMemories bank
  let size := blockNeed request physmem.minAlloc
  if u32Sub physmem.size physmem.allocated < size then
    return 0
  match findFit memory size loopRounds physmem.rootNode (nodeNext memory physmem.rootNode) with
  | none => Exec.fault .diverges
  | some (iterPrev, iter) =>
      if nodeNext memory iter = 0 then
        return 0
      takeBlock size bank iterPrev iter

/-- `physical_memories[index]`, which has five banks and then a `NULL`. -/
def physicalMemory : Nat → Exec State PhysmemE
  | 0 => pure .sram
  | 1 => pure .dramBank1
  | 2 => pure .dramBank2
  | 3 => pure .dramBank3
  | 4 => pure .dramBank4
  | 5 => Exec.fault .nullDereference
  | _ => Exec.fault .outOfBounds

def mmFree (pointer : Nat) : Exec MmState Unit := do
  if pointer = 0 then
    Exec.panic "Trying to free NULL pointer"
  let state ← get
  let node := u32Sub pointer sizeofMmNode
  if nodeNext state.memory node ≠ 0xC0DEBABE then
    Exec.panic "Pointer not made by mm_alloc*"
  let bank ← physicalMemory (mmGetRegion (nodeSize state.memory node))
  let region := state.physicalMemories bank
  setPhysmem bank { region with
    allocated := u32Sub region.allocated (mmGetSize (nodeSize state.memory node)) }
  onMemory (mmListInsert node region.rootNode region.lastNode)

/-! ## Accounting -/

def mmGetTotal (state : MmState) (bank : PhysmemE) : Nat :=
  (state.physicalMemories bank).size

def mmGetUsed (state : MmState) (bank : PhysmemE) : Nat :=
  (state.physicalMemories bank).allocated

def mmGetFree (state : MmState) (bank : PhysmemE) : Nat :=
  u32Sub (state.physicalMemories bank).size (state.physicalMemories bank).allocated

/-! ## Reading the list back -/

/-- The blocks linked from `node` up to `last`, as the headers describe them;
`none` when the links do not lead to `last`. -/
def walkFree (memory : ByteMemory) (last : Nat) : Nat → Nat → Option (List Interval)
  | 0, _ => none
  | rounds + 1, node =>
      if nodeNext memory node = last then some []
      else
        let next := nodeNext memory node
        (walkFree memory last rounds next).map
          (⟨next, mmGetSize (nodeSize memory next)⟩ :: ·)

/-- The free list of a bank, from `root_node` to `last_node`. -/
def freeList (state : MmState) (bank : PhysmemE) : Option (List Interval) :=
  let physmem := state.physicalMemories bank
  walkFree state.memory physmem.lastNode loopRounds physmem.rootNode

/-- The block behind a pointer returned by `mm_alloc`. -/
def blockOf (state : MmState) (pointer : Nat) : Interval :=
  ⟨pointer - sizeofMmNode, mmGetSize (nodeSize state.memory (pointer - sizeofMmNode))⟩

end Vanilla.Mm
