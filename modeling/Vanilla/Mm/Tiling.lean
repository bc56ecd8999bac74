import Vanilla.Mm.Runs

/-! # What every run keeps of a bank

The free list and the live blocks tile the bank, and the counter of allocated
bytes agrees with them.
-/

namespace Vanilla.Mm

open ByteMemory

structure BankTiled (config : Config) (bank : PhysmemE) (free : List Interval) : Prop where
  /-- The links lead from `root_node` through `free` to `last_node`. -/
  listed : freeList config.state bank = some free
  lastNext : nodeNext config.state.memory (config.state.physicalMemories bank).lastNode = 0
  increasing : free.Pairwise (fun left right => left.addr < right.addr)
  notAdjacent : ∀ left ∈ free, ∀ right ∈ free, left.stop ≠ right.addr
  disjoint : (free ++ config.blocks bank).Pairwise Interval.Disjoint
  tiles : ∀ address,
    ((config.state.physicalMemories bank).startAddr ≤ address ∧
      address < (config.state.physicalMemories bank).startAddr +
        (config.state.physicalMemories bank).size) ↔
      Intervals.Covers (free ++ config.blocks bank) address
  sizes : ∀ block ∈ free ++ config.blocks bank, 0 < block.size ∧ 8 ∣ block.size
  allocated : (config.state.physicalMemories bank).allocated =
    Intervals.total (config.blocks bank)
  noUnderflow : (config.state.physicalMemories bank).allocated ≤
    (config.state.physicalMemories bank).size
  remaining : mmGetFree config.state bank = Intervals.total free
  /-- The header in front of a live pointer still describes its block. -/
  headers : ∀ allocation ∈ config.live, allocation.bank = bank →
    allocation.pointer = allocation.block.addr + sizeofMmNode ∧
      blockOf config.state allocation.pointer = allocation.block

section Tiled

variable {linker : Linker} {config : Config}
  {partitions : (bank : PhysmemE) → BankPartition linker bank}

theorem total_perm {left right : List Interval} (perm : left.Perm right) :
    Intervals.total left = Intervals.total right := (perm.map Interval.size).sum_eq

theorem Represents.tiled (rep : Represents linker config partitions) (bank : PhysmemE) :
    BankTiled config bank (partitions bank).free := by
  have bankRep := rep.banks bank
  have live := rep.live bank
  have separated := (partitions bank).separated
  have order := bankStart_lt_bankLast linker bank
  have conserved := (partitions bank).conserved
  have gapPositive := separated.positive
  exact {
    listed := bankRep.freeList_eq
    lastNext := by
      rw [bankRep.lastNode]
      exact bankRep.lastNext
    increasing := by
      apply separated.gaps.imp_of_mem
      intro left right leftMember _ gap
      have positive := gapPositive left leftMember
      simp only [Interval.stop] at gap
      omega
    notAdjacent := by
      intro left leftMember right rightMember touches
      by_cases equal : left = right
      · have positive := gapPositive left leftMember
        simp only [← equal, Interval.stop] at touches
        omega
      · let Gap := fun left right : Interval =>
          left.stop < right.addr ∨ right.stop < left.addr
        have gaps : (partitions bank).free.Pairwise Gap := separated.gaps.imp fun gap => .inl gap
        have : Std.Symm Gap := ⟨fun _ _ => Or.symm⟩
        have apart : Gap left right := gaps.forall leftMember rightMember equal
        have leftPositive := gapPositive left leftMember
        have rightPositive := gapPositive right rightMember
        simp only [Gap, Interval.stop] at *
        omega
    disjoint := by
      refine List.pairwise_append.mpr ⟨?_, ?_, ?_⟩
      · exact separated.gaps.imp fun gap => .inl (Nat.le_of_lt gap)
      · exact (live.pairwise_iff fun disjoint => disjoint.symm).mp (partitions bank).liveApart
      · exact fun gap gapMember block blockMember =>
          (partitions bank).apart gapMember (live.mem_iff.mpr blockMember)
    tiles := by
      intro address
      rw [bankRep.startAddr, bankRep.size, Nat.add_sub_of_le (Nat.le_of_lt order),
        (partitions bank).exact, Intervals.covers_append,
        Intervals.covers_congr fun block => live.mem_iff]
    sizes := by
      intro block member
      rcases List.mem_append.mp member with gapMember | blockMember
      · exact ⟨gapPositive block gapMember, ((partitions bank).freeAligned block gapMember).2⟩
      · have liveMember := live.mem_iff.mpr blockMember
        exact ⟨(partitions bank).livePositive block liveMember,
          ((partitions bank).liveAligned block liveMember).2⟩
    allocated := bankRep.allocated.trans (total_perm live)
    noUnderflow := by
      rw [bankRep.allocated, bankRep.size]
      omega
    remaining := bankRep.remaining_eq
    headers := by
      intro allocation member equal
      subst equal
      have pointer := (rep.pointers allocation member).1
      refine ⟨pointer, ?_⟩
      rw [pointer]
      exact bankRep.blockOf_eq (rep.block_live member) }

/-- Every request is answered, with a pointer or with `NULL`. -/
theorem Represents.alloc_returns (rep : Represents linker config partitions) {request : Nat}
    (requestBound : request ≤ 0xFFFFFFF0) (bank : PhysmemE) :
    ∃ pointer after, (mmAlloc request bank).run config.state = .ok pointer after := by
  cases outcome : bankAllocate bank request (partitions bank).free with
  | none => exact ⟨0, config.state, rep.null outcome⟩
  | some result =>
      rcases rep.alloc requestBound outcome with ⟨after, returns, _⟩
      exact ⟨_, after, returns⟩

end Tiled

/-- Over every run no call faults, and after every call each bank is tiled by
its free list and its live blocks. -/
theorem bank_tiled_of_reachable {linker : Linker} {config : Config}
    (reachable : Reachable linker config) :
    (∀ bank, ∃ free, BankTiled config bank free) ∧
      (∀ request bank, request ≤ 0xFFFFFFF0 →
        ∃ pointer after, (mmAlloc request bank).run config.state = .ok pointer after) ∧
      ∀ allocation ∈ config.live,
        ∃ after, (mmFree allocation.pointer).run config.state = .ok () after := by
  rcases reachable.represents with ⟨partitions, rep⟩
  refine ⟨fun bank => ⟨(partitions bank).free, rep.tiled bank⟩, ?_, ?_⟩
  · exact fun request bank requestBound => rep.alloc_returns requestBound bank
  · intro allocation member
    rcases rep.free member with ⟨after, returns, _⟩
    exact ⟨after, returns⟩

/-! ## A machine with one live block -/

/-- A heap that starts 4 KiB into SRAM, with the five roots below it. -/
def lowHeap : Linker where
  heapStart := 0x20401000
  rootObj bank := 0x20400020 + 0x40 * bank.index
  heapAligned := by decide
  heapFits := by decide
  rootInSram := by
    intro bank
    cases bank <;> decide
  rootBelowHeap := by
    intro bank
    cases bank <;> decide
  rootApart := by
    intro left right different
    cases left <;> cases right <;> first | exact absurd rfl different | decide

/-- The first 100-byte request to SRAM gets the front of the heap. -/
def firstAllocation : Allocation where
  bank := .sram
  request := 100
  pointer := 0x20401008
  block := ⟨0x20401000, 112⟩

theorem reachable_first (memory : ByteMemory) :
    ∃ after, Reachable lowHeap ⟨after, [firstAllocation]⟩ := by
  have start := represents_init lowHeap memory
  have allocated : bankAllocate .sram 100 (wholeBank lowHeap .sram).free =
      some (⟨0x20401000, 112⟩, [⟨0x20401070, 262024⟩]) := by decide
  rcases start.alloc (by decide) allocated with ⟨after, returns, block, _⟩
  have step := Step.alloc (by decide) returns (by decide)
  rw [block] at step
  exact ⟨after, memory, _, .cons step (.nil _)⟩

theorem bank_tiled_of_reachable_first :
    ∃ config, config.live = [firstAllocation] ∧ ∀ bank, ∃ free, BankTiled config bank free := by
  rcases reachable_first ⟨fun _ => 0, []⟩ with ⟨after, reachable⟩
  exact ⟨_, rfl, (bank_tiled_of_reachable reachable).1⟩

end Vanilla.Mm
