import Vanilla.Mm.UmallocRuns
import Vanilla.Mm.Wrapping

/-! # Where `umalloc_new` puts the blocks and the bitmap

The block count, the arena size, its sum with the bitmap size and the number of
pages are all computed in 32 bits.
-/

namespace Vanilla.Mm

open ByteMemory

def UmallocDesc.arenaBytes (desc : UmallocDesc) : Interval :=
  ⟨desc.arena, desc.blockCount * desc.blockSize⟩

def UmallocDesc.bitmapBytes (desc : UmallocDesc) : Interval :=
  ⟨desc.bitmap, desc.blockCount / 8⟩

/-- The arena size as the code computes it. -/
def newArenaSize (blockSize blockCount : Nat) : Nat := u32 (alignedCount blockCount * blockSize)

def newPages (blockSize blockCount : Nat) : Nat :=
  pagesFor (u32 (newArenaSize blockSize blockCount + bitmapSize (alignedCount blockCount)))

/-- What `pmalloc` asks `mm_alloc` for. -/
def pageBytes (pointer pages : Nat) : Interval :=
  ⟨pointer, u32 (pages * 512)⟩

/-- Enough blocks, and room in the pages for all of them and for their bits. -/
structure LaidOut (after : MmState) (blockCount pages : Nat) (desc : UmallocDesc) : Prop where
  count : blockCount ≤ desc.blockCount
  arena : Interval.Within desc.arenaBytes (pageBytes desc.arena pages)
  bitmap : Interval.Within desc.bitmapBytes (pageBytes desc.arena pages)
  apart : desc.arenaBytes.Disjoint desc.bitmapBytes
  obtained : Interval.Within (pageBytes desc.arena pages) (behind after desc.arena)

def NewLaidOut (config : Config) (blockSize blockCount : Nat) (bank : PhysmemE) : Prop :=
  ∀ desc after, (umallocNew blockSize blockCount bank).run config.state = .ok desc after →
    desc.blockSize = blockSize ∧
      LaidOut after blockCount (newPages blockSize blockCount) desc

/-- Nothing wraps: neither the count, nor the bytes rounded up to pages. -/
def NewFits (blockSize blockCount : Nat) : Prop :=
  blockCount + 32 < 2 ^ 32 ∧ umallocBytes blockSize (roundedCount blockCount) ≤ 2 ^ 32 - 512

section Layout

variable {linker : Linker} {config : Config} {blockSize blockCount : Nat} {bank : PhysmemE}
  {partitions : (bank : PhysmemE) → BankPartition linker bank}

def newDesc (pointer blockSize blockCount : Nat) : UmallocDesc where
  arena := pointer
  bitmap := u32 (pointer + newArenaSize blockSize blockCount)
  blockSize := blockSize
  blockCount := alignedCount blockCount

def newMemory (made : MmState) (pointer pages : Nat) : MmState :=
  { made with memory := fill 0xFF made.memory pointer (u32 (pages * 512)) }

theorem run_umallocNew {state made : MmState} {pointer : Nat} (notNull : pointer ≠ 0)
    (returns : (pmalloc (newPages blockSize blockCount) bank).run state = .ok pointer made) :
    (umallocNew blockSize blockCount bank).run state =
      .ok (newDesc pointer blockSize blockCount)
        (newMemory made pointer (newPages blockSize blockCount)) := by
  change (pmalloc (newPages blockSize blockCount) bank >>= fun arena =>
    umallocInit arena (newArenaSize blockSize blockCount) blockSize (alignedCount blockCount)
      (newPages blockSize blockCount)).run state = _
  rw [Exec.run_bind_of_ok returns, run_umallocInit notNull]
  rfl

theorem umallocNew_returns {state after : MmState} {desc : UmallocDesc}
    (returns : (umallocNew blockSize blockCount bank).run state = .ok desc after) :
    ∃ pointer made, pointer ≠ 0 ∧
      (pmalloc (newPages blockSize blockCount) bank).run state = .ok pointer made := by
  obtain ⟨pointer, made, first, second⟩ := Exec.run_bind_ok.mp returns
  refine ⟨pointer, made, ?_, first⟩
  intro null
  rw [null, umallocInit, if_pos rfl] at second
  cases second

/-- The fill of a block leaves the header in front of it. -/
theorem behind_newMemory (made : MmState) {pointer : Nat} (pages : Nat)
    (header : sizeofMmNode ≤ pointer) :
    behind (newMemory made pointer pages) pointer = behind made pointer := by
  have writes : WritesOnly (fun address => pointer ≤ address) made.memory
      (newMemory made pointer pages).memory :=
    WritesOnly.fill 0xFF _ made.memory pointer fun place inside _ => inside
  have size : nodeSize (newMemory made pointer pages).memory (pointer - sizeofMmNode) =
      nodeSize made.memory (pointer - sizeofMmNode) := by
    apply nodeSize_of_writes writes
    intro address inHeader inside
    simp only [Header, sizeofMmNode] at *
    omega
  rw [behind, behind, blockOf, blockOf, size]

/-- The blocks and their bits side by side fill no more than the pages. -/
theorem LaidOut.room {after : MmState} {desc : UmallocDesc} {pages : Nat}
    (laidOut : LaidOut after blockCount pages desc) :
    umallocBytes desc.blockSize desc.blockCount ≤ 2 ^ 32 - 512 := by
  have arena := laidOut.arena
  have bitmap := laidOut.bitmap
  have apart := laidOut.apart
  simp only [Interval.Within, Interval.Disjoint, Interval.stop, UmallocDesc.arenaBytes,
    UmallocDesc.bitmapBytes, pageBytes, u32] at arena bitmap apart
  rw [umallocBytes]
  omega

theorem alignedCount_wraps (wraps : 2 ^ 32 ≤ blockCount + 32) (bound : blockCount < 2 ^ 32) :
    alignedCount blockCount = 0 := by
  have low : u32 (blockCount + 32) = blockCount + 32 - 2 ^ 32 := by
    simp only [u32]
    omega
  rw [alignedCount, low, show (0xFFFFFFE0 : Nat) = 2 ^ 32 - 2 ^ 5 by decide,
    and_high_mask 5 32 (by omega) (by decide)]
  omega

/-- A layout that fits is the one the code computes. -/
theorem NewFits.computed (fits : NewFits blockSize blockCount) :
    newArenaSize blockSize blockCount = roundedCount blockCount * blockSize ∧
      alignedCount blockCount = roundedCount blockCount ∧
      newPages blockSize blockCount =
        pagesFor (umallocBytes blockSize (roundedCount blockCount)) := by
  have rounded := roundedCount_facts blockCount
  have bytes := fits.2
  have count := alignedCount_eq fits.1
  have arena : newArenaSize blockSize blockCount = roundedCount blockCount * blockSize := by
    rw [newArenaSize, count]
    exact u32_of_lt (by rw [umallocBytes] at bytes; omega)
  have bits : bitmapSize (roundedCount blockCount) = roundedCount blockCount / 8 :=
    if_neg (by omega)
  refine ⟨arena, count, ?_⟩
  rw [newPages, arena, count, bits, umallocBytes, u32_of_lt]
  rw [umallocBytes] at bytes
  omega

theorem Represents.laidOut_of_fits (rep : Represents linker config partitions)
    (fits : NewFits blockSize blockCount) : NewLaidOut config blockSize blockCount bank := by
  intro desc after returns
  obtain ⟨arena, count, pages⟩ := fits.computed
  have rounded := roundedCount_facts blockCount
  have total := fits.2
  have paged := pagesFor_facts (umallocBytes blockSize (roundedCount blockCount))
  rw [← pages] at paged
  have request : u32 (newPages blockSize blockCount * 512) =
      newPages blockSize blockCount * 512 := u32_of_lt (by omega)
  obtain ⟨pointer, made, notNull, first⟩ := umallocNew_returns returns
  cases rep.pmalloc (newPages blockSize blockCount) bank (by rw [request]; omega) with
  | inl panics =>
      rw [first] at panics
      cases panics
  | inr granted =>
      obtain ⟨allocation, made', next, first', block, changed⟩ := granted
      rw [first] at first'
      cases first'
      rw [run_umallocNew notNull first] at returns
      cases returns
      have place := changed.pointers allocation List.mem_cons_self
      have live := changed.block_live List.mem_cons_self
      have inside := block.inside
      have last := bankLast_lt linker bank
      have size : blockOf made allocation.pointer = allocation.block := by
        rw [place.1]
        exact (changed.banks allocation.bank).blockOf_eq live
      rw [block.size, request] at place
      rw [request] at inside
      have bytes : umallocBytes blockSize (roundedCount blockCount) =
        roundedCount blockCount * blockSize + roundedCount blockCount / 8 := rfl
      have bitmap : u32 (allocation.pointer + newArenaSize blockSize blockCount) =
          allocation.pointer + roundedCount blockCount * blockSize := by
        rw [arena]
        exact u32_of_lt (by omega)
      have room : behind (newMemory made allocation.pointer (newPages blockSize blockCount))
          (newDesc allocation.pointer blockSize blockCount).arena =
          ⟨allocation.pointer, allocation.block.size - 8⟩ := by
        change behind _ allocation.pointer = _
        rw [behind_newMemory made _ (by rw [sizeofMmNode]; omega), behind, size, sizeofMmNode]
      refine ⟨rfl, ?_, ?_, ?_, ?_, ?_⟩
      · change blockCount ≤ alignedCount blockCount
        rw [count]
        exact rounded.2.1.le
      · rw [pageBytes, request, UmallocDesc.arenaBytes, newDesc, count]
        simp only [Interval.Within, Interval.stop]
        omega
      · rw [pageBytes, request, UmallocDesc.bitmapBytes, newDesc, count, bitmap]
        simp only [Interval.Within, Interval.stop]
        omega
      · rw [UmallocDesc.arenaBytes, UmallocDesc.bitmapBytes, newDesc, count, bitmap]
        exact .inl (Nat.le_refl _)
      · rw [room, pageBytes, request, newDesc]
        simp only [Interval.Within, Interval.stop]
        omega

/-- A layout whose sizes wrap is handed out all the same. -/
theorem Represents.not_laidOut (rep : Represents linker config partitions)
    (countBound : blockCount < 2 ^ 32) (wraps : ¬ NewFits blockSize blockCount)
    (room : ¬ NothingFits bank (u32 (newPages blockSize blockCount * 512))
      (partitions bank).free) : ¬ NewLaidOut config blockSize blockCount bank := by
  intro every
  obtain ⟨pointer, made, notNull, pages⟩ := rep.pmalloc_fits bank room
  obtain ⟨_, laidOut⟩ := every _ _ (run_umallocNew notNull pages)
  have count : blockCount ≤ alignedCount blockCount := laidOut.count
  have bytes : umallocBytes blockSize (alignedCount blockCount) ≤ 2 ^ 32 - 512 :=
    laidOut.room
  by_cases range : blockCount + 32 < 2 ^ 32
  · rw [alignedCount_eq range] at bytes
    exact wraps ⟨range, bytes⟩
  · rw [alignedCount_wraps (by omega) countBound] at count
    omega

end Layout

/-- `umalloc_new` panics or makes a layout with room for everything, exactly when
its sizes do not wrap or no block has the size they wrap to. -/
theorem umalloc_new_laid_out_iff {linker : Linker} {config : Config}
    (reachable : Reachable linker config) (bank : PhysmemE) {free : List Interval}
    (listed : freeList config.state bank = some free) (blockSize blockCount : Nat)
    (countBound : blockCount < 2 ^ 32) :
    NewLaidOut config blockSize blockCount bank ↔
      NewFits blockSize blockCount ∨
        NothingFits bank (u32 (newPages blockSize blockCount * 512)) free := by
  obtain ⟨partitions, rep⟩ := reachable.represents
  rw [(rep.banks bank).freeList_eq] at listed
  cases listed
  constructor
  · intro every
    by_contra neither
    rw [not_or] at neither
    exact rep.not_laidOut countBound neither.1 neither.2 every
  · intro condition
    cases condition with
    | inl fits => exact rep.laidOut_of_fits fits
    | inr nothing =>
        intro desc after returns
        obtain ⟨pointer, made, notNull, first⟩ := umallocNew_returns returns
        obtain ⟨answer, between, allocates, _⟩ := Exec.run_bind_ok.mp first
        rw [rep.pmalloc_nothing nothing] at first
        cases first

theorem umalloc_new_laid_out_iff_start :
    NewLaidOut startConfig 64 10 .sram ↔
      NewFits 64 10 ∨
        NothingFits .sram (u32 (newPages 64 10 * 512)) (wholeBank lowHeap .sram).free :=
  umalloc_new_laid_out_iff ⟨⟨fun _ => 0, []⟩, [], .nil _⟩ .sram startConfig_listed 64 10
    (by decide)

/-- Ten blocks of 2^27 bytes, rounded up to 32 of them: the arena size wraps to 0. -/
theorem wrapped_arena_granted : ¬ NewLaidOut startConfig 0x8000000 10 .sram := by
  apply startConfig_represents.not_laidOut (by decide)
  · intro fits
    exact absurd fits.2 (by decide)
  · exact startConfig_fits (by decide)

end Vanilla.Mm
