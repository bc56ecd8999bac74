import Vanilla.Mm.Tiling
import Vanilla.Mm.UmallocRefinement

/-! # Runs of the bitmap allocator

Any interleaving of `umalloc`, `ucalloc` and `ufree` on one descriptor, with the
owners of the blocks storing into them in between.
-/

namespace Vanilla.Mm

open ByteMemory

/-- The allocator with the pointers that are live. -/
structure UmallocConfig where
  state : UmallocState
  live : List Nat

inductive UmallocCall where
  | umalloc
  | ucalloc
  | ufree (pointer : Nat)
  /-- The owner of a block stores a byte. -/
  | store (address : Nat) (value : UInt8)

inductive UmallocStep : UmallocConfig → UmallocCall → UmallocConfig → Prop where
  | umalloc {config : UmallocConfig} {pointer : Nat} {after : UmallocState} :
      umalloc.run config.state = .ok pointer after →
      UmallocStep config .umalloc ⟨after, pointer :: config.live⟩
  | ucalloc {config : UmallocConfig} {pointer : Nat} {after : UmallocState} :
      ucalloc.run config.state = .ok pointer after →
      UmallocStep config .ucalloc ⟨after, pointer :: config.live⟩
  | ufree {config : UmallocConfig} {pointer : Nat} {after : UmallocState} :
      (ufree pointer).run config.state = .ok () after →
      UmallocStep config (.ufree pointer) ⟨after, config.live.erase pointer⟩
  | store {config : UmallocConfig} {pointer address : Nat} {value : UInt8} :
      pointer ∈ config.live → pointer ≤ address →
      address < pointer + config.state.desc.blockSize →
      UmallocStep config (.store address value)
        ⟨config.state.setMemory (config.state.memory.store8 address value), config.live⟩

/-- The live pointers are the blocks in use. -/
structure UmallocInvariant (config : UmallocConfig) (used : List Nat) : Prop where
  rep : UmallocRep config.state used
  live : config.live = used.map config.state.desc.block

theorem lowestFree_or_full (state : UmallocState) (used : List Nat) :
    (∃ index, LowestFree state.desc used index) ∨
      ∀ index, index < state.desc.blockCount → index ∈ used := by
  by_cases full : ∀ index, index < state.desc.blockCount → index ∈ used
  · exact .inr full
  · simp only [not_forall] at full
    rcases full with ⟨index, bound, free⟩
    exact .inl (exists_lowestFree bound free)

theorem UmallocInvariant.taken {config : UmallocConfig} {used : List Nat} {index : Nat}
    {after : UmallocState} (invariant : UmallocInvariant config used)
    (rep : UmallocRep after (index :: used))
    (desc : after.desc = { config.state.desc with usedBlocks := used.length + 1 }) :
    UmallocInvariant ⟨after, config.state.desc.block index :: config.live⟩ (index :: used) := by
  refine ⟨rep, ?_⟩
  rw [invariant.live]
  simp only [desc, List.map_cons]
  rfl

theorem map_block_erase {desc : UmallocDesc} (wellformed : desc.Wellformed) {used : List Nat}
    (index : Nat) :
    (used.map desc.block).erase (desc.block index) = (used.erase index).map desc.block :=
  (List.map_erase (fun _ _ => wellformed.block_injective) used).symm

theorem UmallocInvariant.step {config after : UmallocConfig} {used : List Nat}
    {call : UmallocCall} (invariant : UmallocInvariant config used)
    (step : UmallocStep config call after) :
    ∃ next, UmallocInvariant after next ∧ after.state.desc =
      { config.state.desc with usedBlocks := after.state.desc.usedBlocks } := by
  have rep := invariant.rep
  cases step with
  | umalloc returns =>
      rcases lowestFree_or_full config.state used with ⟨index, lowest⟩ | full
      · rcases umalloc_spec rep lowest with ⟨state, returns', changed, desc⟩
        cases returns.symm.trans returns'
        exact ⟨_, invariant.taken changed desc, by rw [desc]⟩
      · cases returns.symm.trans (umalloc_full rep full)
  | ucalloc returns =>
      rcases lowestFree_or_full config.state used with ⟨index, lowest⟩ | full
      · rcases ucalloc_spec rep lowest with ⟨state, returns', changed, desc⟩
        cases returns.symm.trans returns'
        exact ⟨_, invariant.taken changed desc, by rw [desc]⟩
      · cases returns.symm.trans (ucalloc_full rep full)
  | @ufree pointer state returns =>
      by_cases isLive : ∃ index ∈ used, pointer = config.state.desc.block index
      · rcases isLive with ⟨index, member, rfl⟩
        rcases ufree_spec rep member with ⟨state', returns', changed, desc⟩
        cases returns.symm.trans returns'
        refine ⟨_, ⟨changed, ?_⟩, by rw [desc]⟩
        rw [invariant.live, map_block_erase rep.wellformed]
        simp only [desc]
        rfl
      · have foreign : ∀ index ∈ used, pointer ≠ config.state.desc.block index :=
          fun index member equal => isLive ⟨index, member, equal⟩
        cases returns.symm.trans (ufree_refuses rep foreign)
  | @store pointer address value member lower upper =>
      rw [invariant.live] at member
      rcases List.mem_map.mp member with ⟨index, inUsed, rfl⟩
      have within := rep.wellformed.block_bound (rep.bound index inUsed)
      have writes : WritesOnly (fun other => other = address) config.state.memory
          (config.state.memory.store8 address value) := WritesOnly.store8 _ value rfl
      exact ⟨used, ⟨rep.store writes fun other equal => by omega, invariant.live⟩, rfl⟩

/-! ## Creation -/

theorem load8_fill (value : UInt8) (count : Nat) :
    ∀ (memory : ByteMemory) (address other : Nat), address ≤ other → other < address + count →
      (fill value memory address count).load8 other = value := by
  induction count with
  | zero => intro memory address other lower upper; omega
  | succ count induction =>
      intro memory address other lower upper
      rw [fill]
      by_cases first : other = address
      · have rest : WritesOnly (fun place => address + 1 ≤ place) _ _ :=
          WritesOnly.fill value count (memory.store8 address value) (address + 1)
            fun place inside _ => inside
        rw [rest.kept other (by omega), first, load8_store8_same]
      · exact induction _ _ _ (by omega) (by omega)

/-- The number of blocks `umalloc_new` makes of a request for `blockCount`. -/
def roundedCount (blockCount : Nat) : Nat := (blockCount + 32) / 32 * 32

theorem roundedCount_facts (blockCount : Nat) :
    32 ∣ roundedCount blockCount ∧ blockCount < roundedCount blockCount ∧
      32 ≤ roundedCount blockCount := by
  simp only [roundedCount]
  omega

theorem load32_ones {memory : ByteMemory} {address : Nat}
    (ones : ∀ offset, offset < 4 → memory.load8 (address + offset) = 0xFF) :
    memory.load32 address = 0xFFFFFFFF := by
  have first := ones 0 (by omega)
  rw [Nat.add_zero] at first
  simp only [load32, first, ones 1 (by omega), ones 2 (by omega), ones 3 (by omega)]
  decide

/-- The descriptor `umalloc_new` makes, and the memory it lies in. -/
structure UmallocMade (linker : Linker) (blockSize blockCount : Nat) (bank : PhysmemE)
    (desc : UmallocDesc) : Prop where
  blockSize : desc.blockSize = blockSize
  blockCount : desc.blockCount = roundedCount blockCount
  inBank : bankStart linker bank < desc.arena ∧
    desc.bitmap + desc.blockCount / 8 ≤ bankLast linker bank

theorem pagesFor_facts (total : Nat) :
    total ≤ pagesFor total * 512 ∧ pagesFor total * 512 ≤ total + 511 := by
  simp only [pagesFor]
  split <;> omega

theorem alignedCount_eq {blockCount : Nat} (range : blockCount + 32 < 2 ^ 32) :
    alignedCount blockCount = roundedCount blockCount := by
  rw [alignedCount, u32_of_lt range, show (0xFFFFFFE0 : Nat) = 2 ^ 32 - 2 ^ 5 by decide,
    and_high_mask 5 32 range (by decide)]
  rfl

/-- The memory of an allocator of `count` blocks: the blocks and the bitmap. -/
def umallocBytes (blockSize count : Nat) : Nat := count * blockSize + count / 8

theorem umallocNew_eq {blockSize blockCount : Nat} (bank : PhysmemE) (sized : 1 ≤ blockSize)
    (fits : umallocBytes blockSize (roundedCount blockCount) + 511 < 2 ^ 32) :
    umallocNew blockSize blockCount bank =
      pmalloc (pagesFor (umallocBytes blockSize (roundedCount blockCount))) bank >>= fun arena =>
        umallocInit arena (roundedCount blockCount * blockSize) blockSize
          (roundedCount blockCount)
          (pagesFor (umallocBytes blockSize (roundedCount blockCount))) := by
  have rounded := roundedCount_facts blockCount
  have large := Nat.mul_le_mul_left (roundedCount blockCount) sized
  have range : blockCount + 32 < 2 ^ 32 := by
    simp only [umallocBytes, roundedCount] at *
    omega
  have arena : u32 (roundedCount blockCount * blockSize) = roundedCount blockCount * blockSize :=
    u32_of_lt (by rw [umallocBytes] at fits; omega)
  have bits : bitmapSize (roundedCount blockCount) = roundedCount blockCount / 8 :=
    if_neg (by omega)
  have total : u32 (roundedCount blockCount * blockSize + roundedCount blockCount / 8) =
      umallocBytes blockSize (roundedCount blockCount) :=
    u32_of_lt (by rw [umallocBytes] at fits; omega)
  dsimp only [umallocNew]
  rw [alignedCount_eq range, arena, bits, total]

theorem run_umallocInit {arena : Nat} (notNull : arena ≠ 0)
    (arenaSize blockSize blockCount pages : Nat) (state : MmState) :
    (umallocInit arena arenaSize blockSize blockCount pages).run state =
      .ok ⟨arena, u32 (arena + arenaSize), blockSize, blockCount, 0⟩
        { state with memory := fill 0xFF state.memory arena (u32 (pages * 512)) } := by
  rw [umallocInit, if_neg notNull]
  rfl

/-- Memory of ones is a bitmap of free blocks. -/
theorem freeBit_ones {memory : ByteMemory} {bitmap index : Nat}
    (ones : ∀ offset, offset < 4 →
      memory.load8 (bitmap + 4 * (index / 32) + offset) = 0xFF) :
    freeBit memory bitmap index = true := by
  have low : index % 32 < 32 := Nat.mod_lt _ (by decide)
  rw [freeBit, load32_ones ones, show (0xFFFFFFFF : Nat) = 2 ^ 32 - 1 by decide,
    Nat.testBit_two_pow_sub_one]
  exact decide_eq_true low

theorem umallocNew_spec {linker : Linker} {config : Config}
    {partitions : (bank : PhysmemE) → BankPartition linker bank}
    (rep : Represents linker config partitions) {blockSize blockCount : Nat}
    (bank : PhysmemE) (sized : 1 ≤ blockSize)
    (fits : umallocBytes blockSize (roundedCount blockCount) + 511 < 2 ^ 32) :
    (umallocNew blockSize blockCount bank).run config.state =
        .error (.panic "palloc failed") config.state ∨
      ∃ desc after, (umallocNew blockSize blockCount bank).run config.state = .ok desc after ∧
        UmallocMade linker blockSize blockCount bank desc ∧ UmallocRep ⟨after, desc⟩ [] := by
  have rounded := roundedCount_facts blockCount
  have pages := pagesFor_facts (umallocBytes blockSize (roundedCount blockCount))
  have bytes : u32 (pagesFor (umallocBytes blockSize (roundedCount blockCount)) * 512) = _ :=
    u32_of_lt (Nat.lt_of_le_of_lt pages.2 fits)
  have request : u32 (pagesFor (umallocBytes blockSize (roundedCount blockCount)) * 512) ≤
      0xFFFFFFF0 := by
    rw [bytes]
    omega
  rw [umallocNew_eq bank sized fits]
  rcases rep.pmalloc _ bank request with
    panics | ⟨allocation, after, next, returns, block, _⟩
  · exact .inl (Exec.run_bind_of_error panics)
  · right
    have above := block.above
    have inside := block.inside
    have last := bankLast_lt linker bank
    rw [bytes] at inside
    have total : umallocBytes blockSize (roundedCount blockCount) =
      roundedCount blockCount * blockSize + roundedCount blockCount / 8 := rfl
    have bitmap : u32 (allocation.pointer + roundedCount blockCount * blockSize) =
        allocation.pointer + roundedCount blockCount * blockSize := u32_of_lt (by omega)
    refine ⟨⟨allocation.pointer, allocation.pointer + roundedCount blockCount * blockSize,
      blockSize, roundedCount blockCount, 0⟩, { after with
        memory := fill 0xFF after.memory allocation.pointer
          (pagesFor (umallocBytes blockSize (roundedCount blockCount)) * 512) }, ?_, ?_, ?_⟩
    · rw [Exec.run_bind_of_ok returns, run_umallocInit (by omega), bitmap, bytes]
    · exact ⟨rfl, rfl, above, by simp only; omega⟩
    · exact {
        wellformed := ⟨sized, rounded.1, rfl, by simp only; omega⟩
        nodup := List.nodup_nil
        bound := by simp
        bits := by
          intro index bound
          simp only at bound
          have free : freeBit (fill 0xFF after.memory allocation.pointer
              (pagesFor (umallocBytes blockSize (roundedCount blockCount)) * 512))
              (allocation.pointer + roundedCount blockCount * blockSize) index = true :=
            freeBit_ones fun offset offsetBound => load8_fill 0xFF _ _ _ _ (by omega) (by omega)
          exact free.trans (by simp)
        count := rfl }

/-! ## The set of live blocks -/

/-- What a bitmap allocator promises about its live pointers. -/
structure UmallocSafe (config : UmallocConfig) : Prop where
  nodup : config.live.Nodup
  blocks : ∀ pointer ∈ config.live, ∃ index, index < config.state.desc.blockCount ∧
    pointer = config.state.desc.arena + config.state.desc.blockSize * index ∧
    pointer + config.state.desc.blockSize ≤ config.state.desc.bitmap
  used : config.state.desc.usedBlocks = config.live.length
  zeros : ((List.range config.state.desc.blockCount).filter fun index =>
    decide (getBitmapValue config.state.memory config.state.desc index = 0)).length =
      config.live.length
  full : config.live.length = config.state.desc.blockCount →
    ∀ code, code = umalloc ∨ code = ucalloc →
      code.run config.state = .error (.panic "ups") config.state
  lowest : config.live.length ≠ config.state.desc.blockCount →
    ∀ code, code = umalloc ∨ code = ucalloc →
      ∃ index after, index < config.state.desc.blockCount ∧
        config.state.desc.block index ∉ config.live ∧
        (∀ other, other < index → config.state.desc.block other ∈ config.live) ∧
        code.run config.state = .ok (config.state.desc.block index) after
  frees : ∀ pointer ∈ config.live, ∃ after, (ufree pointer).run config.state = .ok () after
  refuses : ∀ pointer, pointer ∉ config.live →
    (ufree pointer).run config.state = .error (.panic "bfree failed") config.state

/-- Indices in use that are below a bound make it up when they are that many. -/
theorem length_eq_iff_full {used : List Nat} {count : Nat} (nodup : used.Nodup)
    (bound : ∀ index ∈ used, index < count) :
    used.length = count ↔ ∀ index, index < count → index ∈ used := by
  have subset : used ⊆ List.range count := fun index member =>
    List.mem_range.mpr (bound index member)
  have subperm := nodup.subperm subset
  constructor
  · intro equal index inRange
    have perm := subperm.perm_of_length_le (by rw [List.length_range, equal])
    exact perm.mem_iff.mpr (List.mem_range.mpr inRange)
  · intro full
    have back : List.range count ⊆ used := fun index member =>
      full index (List.mem_range.mp member)
    have less := subperm.length_le
    have more := (List.nodup_range.subperm back).length_le
    rw [List.length_range] at less more
    omega

section Safe

variable {config : UmallocConfig} {used : List Nat}

theorem UmallocInvariant.mem_live (invariant : UmallocInvariant config used) (index : Nat) :
    config.state.desc.block index ∈ config.live ↔ index ∈ used := by
  rw [invariant.live]
  exact List.mem_map_of_injective fun _ _ =>
    invariant.rep.wellformed.block_injective

theorem UmallocInvariant.zeros (invariant : UmallocInvariant config used) :
    ((List.range config.state.desc.blockCount).filter fun index =>
      decide (getBitmapValue config.state.memory config.state.desc index = 0)).Perm used := by
  have rep := invariant.rep
  apply (List.perm_ext_iff_of_nodup (List.nodup_range.filter _) rep.nodup).mpr
  intro index
  rw [List.mem_filter, List.mem_range]
  constructor
  · intro member
    have zero := of_decide_eq_true member.2
    rw [getBitmapValue_eq rep.wellformed member.1, rep.bits index member.1] at zero
    by_contra free
    simp [free] at zero
  · intro inUsed
    have bound := rep.bound index inUsed
    refine ⟨bound, decide_eq_true ?_⟩
    rw [getBitmapValue_eq rep.wellformed bound, rep.bits index bound]
    simp [inUsed]

theorem UmallocInvariant.safe (invariant : UmallocInvariant config used) :
    UmallocSafe config := by
  have rep := invariant.rep
  have length : config.live.length = used.length := by rw [invariant.live, List.length_map]
  have full := length_eq_iff_full rep.nodup rep.bound
  exact {
    nodup := by
      rw [invariant.live]
      exact rep.nodup.map fun _ _ => rep.wellformed.block_injective
    blocks := by
      intro pointer member
      rw [invariant.live] at member
      rcases List.mem_map.mp member with ⟨index, inUsed, rfl⟩
      have bound := rep.bound index inUsed
      exact ⟨index, bound, rfl, rep.wellformed.block_bound bound⟩
    used := by rw [rep.count, length]
    zeros := by rw [invariant.zeros.length_eq, length]
    full := by
      intro isFull code isCode
      have all := full.mp (length.symm.trans isFull)
      rcases isCode with rfl | rfl
      · exact umalloc_full rep all
      · exact ucalloc_full rep all
    lowest := by
      intro notFull code isCode
      rcases lowestFree_or_full config.state used with ⟨index, lowest⟩ | all
      · refine ⟨index, ?_⟩
        have free : config.state.desc.block index ∉ config.live := fun member =>
          lowest.2.1 ((invariant.mem_live index).mp member)
        have earlier : ∀ other, other < index → config.state.desc.block other ∈ config.live :=
          fun other before => (invariant.mem_live other).mpr (lowest.2.2 other before)
        rcases isCode with rfl | rfl
        · rcases umalloc_spec rep lowest with ⟨after, returns, _⟩
          exact ⟨after, lowest.1, free, earlier, returns⟩
        · rcases ucalloc_spec rep lowest with ⟨after, returns, _⟩
          exact ⟨after, lowest.1, free, earlier, returns⟩
      · exact absurd (length.trans (full.mpr all)) notFull
    frees := by
      intro pointer member
      rw [invariant.live] at member
      rcases List.mem_map.mp member with ⟨index, inUsed, rfl⟩
      rcases ufree_spec rep inUsed with ⟨after, returns, _⟩
      exact ⟨after, returns⟩
    refuses := by
      intro pointer absent
      apply ufree_refuses rep
      intro index inUsed equal
      exact absent (equal ▸ (invariant.mem_live index).mpr inUsed) }

end Safe

/-- From any descriptor `umalloc_new` makes, over every run, the bitmap
allocator is a set of live blocks. -/
theorem umalloc_refines_set {linker : Linker} {config : Config}
    (reachable : Reachable linker config) {blockSize blockCount : Nat} {bank : PhysmemE}
    (sized : 1 ≤ blockSize)
    (fits : umallocBytes blockSize (roundedCount blockCount) + 511 < 2 ^ 32)
    {desc : UmallocDesc} {made : MmState}
    (new : (umallocNew blockSize blockCount bank).run config.state = .ok desc made)
    {calls : List UmallocCall} {after : UmallocConfig}
    (run : Run UmallocStep ⟨⟨made, desc⟩, []⟩ calls after) :
    UmallocMade linker blockSize blockCount bank after.state.desc ∧ UmallocSafe after := by
  rcases reachable.represents with ⟨partitions, rep⟩
  rcases umallocNew_spec rep bank sized fits with panics | ⟨desc', made', new', isMade, start⟩
  · cases new.symm.trans panics
  · cases new.symm.trans new'
    have invariant := run.invariant
      (fun config => ∃ used, UmallocInvariant config used ∧
        UmallocMade linker blockSize blockCount bank config.state.desc) (by
      intro before call later holds step
      rcases holds with ⟨used, invariant, kept⟩
      rcases invariant.step step with ⟨next, nextInvariant, desc⟩
      exact ⟨next, nextInvariant, by rw [desc]; exact ⟨kept.blockSize, kept.blockCount,
        kept.inBank⟩⟩) ⟨[], ⟨start, rfl⟩, isMade⟩
    rcases invariant with ⟨used, invariant, kept⟩
    exact ⟨kept, invariant.safe⟩

/-- Blocks of 64 bytes in SRAM, none of them taken yet. -/
theorem umalloc_refines_set_first : ∃ desc made,
    (umallocNew 64 10 .sram).run (mmInit lowHeap ⟨fun _ => 0, []⟩) = .ok desc made ∧
      UmallocSafe ⟨⟨made, desc⟩, []⟩ := by
  have start := represents_init lowHeap ⟨fun _ => 0, []⟩
  have fits : umallocBytes 64 (roundedCount 10) + 511 < 2 ^ 32 := by decide
  rcases umallocNew_spec start .sram (by decide) fits with panics | ⟨desc, made, new, _⟩
  · have allocated : bankAllocate .sram 2560 (wholeBank lowHeap .sram).free =
        some (⟨0x20401000, 2568⟩, [⟨0x20401A08, 259568⟩]) := by decide
    rcases start.alloc (by decide) allocated with ⟨after, returns, _⟩
    have pages : pagesFor (umallocBytes 64 (roundedCount 10)) = 5 := by decide
    have allocates : (pmalloc 5 .sram).run (mmInit lowHeap ⟨fun _ => 0, []⟩) =
        .ok (0x20401000 + 8) after := by
      rw [pmalloc, show u32 (5 * 512) = 2560 by decide, Exec.run_bind_of_ok returns,
        if_neg (by decide), EStateM.run_pure]
    rw [umallocNew_eq .sram (by decide) fits, pages, Exec.run_bind_of_ok allocates,
      run_umallocInit (by decide)] at panics
    cases panics
  · exact ⟨desc, made, new, (umalloc_refines_set ⟨_, _, .nil _⟩ (by decide) fits new
      (.nil _)).2⟩

end Vanilla.Mm
