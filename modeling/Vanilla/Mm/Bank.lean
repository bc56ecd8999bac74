import Vanilla.Foundation.Partition
import Vanilla.Mm.ListInsert

/-! # One bank

`BankRep` says that the memory and the record of a bank represent a partition
of its address range. `mm_alloc` refines `Partition.take`, `mm_free` refines
`Partition.give`.
-/

namespace Vanilla.Mm

open ByteMemory

/-! ## The address ranges -/

def bankStart (linker : Linker) : PhysmemE → Nat
  | .sram => linker.heapStart
  | .dramBank1 => 0x70000000
  | .dramBank2 => 0x70080000
  | .dramBank3 => 0x70100000
  | .dramBank4 => 0x70180000

/-- The address of the last node, where the blocks end. -/
def bankLast (linker : Linker) : PhysmemE → Nat
  | .sram => linker.heapStart + 262136
  | .dramBank1 => 0x7007FFF0
  | .dramBank2 => 0x700FFFF0
  | .dramBank3 => 0x7017FFF0
  | .dramBank4 => 0x701FFFF0

def bankMinAlloc : PhysmemE → Nat
  | .sram => 16
  | _ => 256

abbrev BankPartition (linker : Linker) (bank : PhysmemE) :=
  Partition 8 (bankStart linker bank) (bankLast linker bank)

/-- The addresses the memory manager uses for a bank. -/
def BankArea (linker : Linker) (bank : PhysmemE) (address : Nat) : Prop :=
  Header (linker.rootObj bank) address ∨
    bankStart linker bank ≤ address ∧ address < bankLast linker bank + 8

section Layout

variable (linker : Linker) (bank : PhysmemE)

theorem bankStart_aligned : 8 ∣ bankStart linker bank := by
  have heap := linker.heapAligned
  cases bank <;> simp only [bankStart] <;> omega

theorem bankLast_aligned : 8 ∣ bankLast linker bank := by
  have heap := linker.heapAligned
  cases bank <;> simp only [bankLast] <;> omega

theorem bankStart_lt_bankLast : bankStart linker bank < bankLast linker bank := by
  cases bank <;> simp only [bankStart, bankLast] <;> omega

theorem bankLast_lt : bankLast linker bank + 8 < 2 ^ 32 := by
  have heap := linker.heapFits
  cases bank <;> simp only [bankLast] <;> omega

theorem bankSize_lt : bankLast linker bank - bankStart linker bank < 2 ^ 28 := by
  cases bank <;> simp only [bankStart, bankLast] <;> omega

theorem rootObj_below : linker.rootObj bank + 8 ≤ bankStart linker bank := by
  have root := linker.rootBelowHeap bank
  have heap := linker.heapFits
  cases bank <;> simp only [bankStart] <;> omega

theorem bankIndex_lt : bank.index < 16 := by
  cases bank <;> decide

theorem bankMinAlloc_facts :
    16 ≤ bankMinAlloc bank ∧ bankMinAlloc bank ≤ 256 ∧ 8 ∣ bankMinAlloc bank := by
  cases bank <;> decide

/-- Different banks use different addresses. -/
theorem bankArea_apart {left right : PhysmemE} (different : left ≠ right) {address : Nat}
    (inLeft : BankArea linker left address) : ¬ BankArea linker right address := by
  have leftRoot := linker.rootBelowHeap left
  have rightRoot := linker.rootBelowHeap right
  have roots := linker.rootApart left right different
  have heap := linker.heapFits
  simp only [BankArea, Header] at *
  cases left <;> cases right <;> simp only [bankStart, bankLast] at * <;>
    first | exact absurd rfl different | omega

end Layout

/-! ## Representation -/

structure BankRep (linker : Linker) (state : MmState) (bank : PhysmemE)
    (partition : BankPartition linker bank) : Prop where
  startAddr : (state.physicalMemories bank).startAddr = bankStart linker bank
  size : (state.physicalMemories bank).size = bankLast linker bank - bankStart linker bank
  allocated : (state.physicalMemories bank).allocated = Intervals.total partition.live
  minAlloc : (state.physicalMemories bank).minAlloc = bankMinAlloc bank
  rootNode : (state.physicalMemories bank).rootNode = linker.rootObj bank
  lastNode : (state.physicalMemories bank).lastNode = bankLast linker bank
  chain : Chain state.memory bank.index (linker.rootObj bank) partition.free
    (bankLast linker bank)
  rootSize : nodeSize state.memory (linker.rootObj bank) = 0
  lastNext : nodeNext state.memory (bankLast linker bank) = 0
  live : ∀ block ∈ partition.live, nodeNext state.memory block.addr = 0xC0DEBABE ∧
    nodeSize state.memory block.addr = tagged bank.index block.size

section Partition

variable {linker : Linker} {bank : PhysmemE} (partition : BankPartition linker bank)

theorem free_size_ge {gap : Interval} (member : gap ∈ partition.free) : 8 ≤ gap.size := by
  have positive := partition.separated.positive gap member
  have aligned := (partition.freeAligned gap member).2
  omega

theorem live_size_ge {block : Interval} (member : block ∈ partition.live) :
    8 ≤ block.size := by
  have positive := partition.livePositive block member
  have aligned := (partition.liveAligned block member).2
  omega

theorem free_header_covered {gap : Interval} (member : gap ∈ partition.free) {address : Nat}
    (inside : Header gap.addr address) : Intervals.Covers partition.free address := by
  have large := free_size_ge partition member
  refine ⟨gap, member, ?_⟩
  simp only [Header, Interval.Holds, Interval.stop] at *
  omega

theorem live_header_holds {block : Interval} (member : block ∈ partition.live) {address : Nat}
    (inside : Header block.addr address) : block.Holds address := by
  have large := live_size_ge partition member
  simp only [Header, Interval.Holds, Interval.stop] at *
  omega

/-- The addresses of all headers of a bank. -/
def BankHeader (partition : BankPartition linker bank) (address : Nat) : Prop :=
  Header (linker.rootObj bank) address ∨ Header (bankLast linker bank) address ∨
    (∃ gap ∈ partition.free, Header gap.addr address) ∨
    ∃ block ∈ partition.live, Header block.addr address

theorem bankHeader_inArea {address : Nat} (header : BankHeader partition address) :
    BankArea linker bank address := by
  have order := bankStart_lt_bankLast linker bank
  rcases header with inRoot | inLast | ⟨gap, member, inGap⟩ | ⟨block, member, inBlock⟩
  · exact .inl inRoot
  · simp only [Header] at inLast
    exact .inr ⟨by omega, by omega⟩
  · have range := partition.free_inside member
    have large := free_size_ge partition member
    simp only [Header, Interval.stop] at *
    exact .inr ⟨by omega, by omega⟩
  · have range := partition.live_inside member
    have large := live_size_ge partition member
    simp only [Header, Interval.stop] at *
    exact .inr ⟨by omega, by omega⟩

theorem free_total_le : Intervals.total partition.free < 2 ^ 28 := by
  have conserved := partition.conserved
  have bound := bankSize_lt linker bank
  omega

end Partition

namespace BankRep

variable {linker : Linker} {state after : MmState} {bank : PhysmemE}
  {partition : BankPartition linker bank}

/-- Stores that miss the headers of the bank leave its representation alone. -/
theorem frame {footprint : Nat → Prop} (rep : BankRep linker state bank partition)
    (record : after.physicalMemories bank = state.physicalMemories bank)
    (writes : WritesOnly footprint state.memory after.memory)
    (outside : ∀ address, BankHeader partition address → ¬ footprint address) :
    BankRep linker after bank partition := by
  have rootOutside : ∀ address, Header (linker.rootObj bank) address → ¬ footprint address :=
    fun address inside => outside address (.inl inside)
  have lastOutside : ∀ address, Header (bankLast linker bank) address →
      ¬ footprint address := fun address inside => outside address (.inr (.inl inside))
  have freeOutside : ∀ gap ∈ partition.free, ∀ address, Header gap.addr address →
      ¬ footprint address := fun gap member address inside =>
    outside address (.inr (.inr (.inl ⟨gap, member, inside⟩)))
  have liveOutside : ∀ block ∈ partition.live, ∀ address, Header block.addr address →
      ¬ footprint address := fun block member address inside =>
    outside address (.inr (.inr (.inr ⟨block, member, inside⟩)))
  exact {
    startAddr := record ▸ rep.startAddr
    size := record ▸ rep.size
    allocated := record ▸ rep.allocated
    minAlloc := record ▸ rep.minAlloc
    rootNode := record ▸ rep.rootNode
    lastNode := record ▸ rep.lastNode
    chain := rep.chain.frame writes rootOutside freeOutside
    rootSize := (nodeSize_of_writes writes rootOutside).trans rep.rootSize
    lastNext := (nodeNext_of_writes writes lastOutside).trans rep.lastNext
    live := fun block member =>
      ⟨(nodeNext_of_writes writes (liveOutside block member)).trans (rep.live block member).1,
        (nodeSize_of_writes writes (liveOutside block member)).trans (rep.live block member).2⟩ }

/-- The free list read from memory is the free side of the partition. -/
theorem freeList_eq (rep : BankRep linker state bank partition) :
    freeList state bank = some partition.free := by
  simp only [freeList, rep.lastNode, rep.rootNode]
  apply rep.chain.walkFree_eq
  · intro gap member
    have range := partition.free_inside member
    have positive := partition.separated.positive gap member
    have bound := Intervals.size_le_total member
    have total := free_total_le partition
    simp only [Interval.stop] at range
    exact ⟨by omega, by omega⟩
  · have short := Intervals.length_le_total partition.separated.positive
    have total := free_total_le partition
    simp only [loopRounds]
    omega

theorem remaining_eq (rep : BankRep linker state bank partition) :
    u32Sub (state.physicalMemories bank).size (state.physicalMemories bank).allocated =
      Intervals.total partition.free := by
  have conserved := partition.conserved
  have bound := bankSize_lt linker bank
  rw [rep.size, rep.allocated, u32Sub_of_le (by omega) (by omega)]
  omega

end BankRep

end Vanilla.Mm
