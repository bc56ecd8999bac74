import Vanilla.Mm.FirstFit

/-! # Requests of every size

Requests near 2^32 wrap in `mm_alloc` and in the page count of `pmalloc`. They
are answered like small ones, when there is a block.
-/

namespace Vanilla.Mm

open ByteMemory

/-! ## bmalloc.c -/

def bmalloc (size : Nat) (bank : PhysmemE) : Exec MmState Nat := do
  let pointer ← mmAlloc size bank
  if pointer = 0 then
    Exec.panic "salloc failed"
  return pointer

/-! ## The block behind a pointer -/

/-- Whenever the code returns a pointer, so many bytes fit behind it and every
bank is tiled by its free list and its live blocks. -/
def RoomGranted (config : Config) (bank : PhysmemE) (bytes : Nat)
    (code : Exec MmState Nat) : Prop :=
  ∀ pointer after, code.run config.state = .ok pointer after → pointer ≠ 0 →
    bytes + sizeofMmNode ≤ (blockOf after pointer).size ∧
      ∀ other, ∃ free,
        BankTiled ⟨after, ⟨bank, bytes, pointer, blockOf after pointer⟩ :: config.live⟩ other free

/-- No free block has the size the code computes from a request. -/
def NothingFits (bank : PhysmemE) (request : Nat) (free : List Interval) : Prop :=
  ∀ gap ∈ free, gap.size < blockNeed request (bankMinAlloc bank)

/-- The memory behind a pointer: its block without the header. -/
def behind (state : MmState) (pointer : Nat) : Interval :=
  ⟨pointer, (blockOf state pointer).size - sizeofMmNode⟩

theorem blockOf_size_lt (state : MmState) (pointer : Nat) :
    (blockOf state pointer).size < 2 ^ 28 := by
  rw [blockOf, mmGetSize_eq]
  exact Nat.mod_lt _ (by decide)

/-! ## Sizes that wrap -/

/-- The header makes the size wrap, and the minimum is taken. -/
theorem blockNeed_header_wraps {request : Nat} (high : 2 ^ 32 - 8 ≤ request)
    (bound : request < 2 ^ 32) (bank : PhysmemE) :
    blockNeed request (bankMinAlloc bank) = blockNeed 0 (bankMinAlloc bank) := by
  have minimum := bankMinAlloc_facts bank
  have small : u32 (request + sizeofMmNode) < bankMinAlloc bank := by
    simp only [u32, sizeofMmNode]
    omega
  have zero : u32 (0 + sizeofMmNode) < bankMinAlloc bank := by
    simp only [u32, sizeofMmNode]
    omega
  simp only [blockNeed, if_pos small, if_pos zero]

/-- The rounding makes the size wrap to zero. -/
theorem blockNeed_align_wraps {request : Nat} (low : 0xFFFFFFF0 < request)
    (high : request < 2 ^ 32 - 8) (bank : PhysmemE) :
    blockNeed request (bankMinAlloc bank) = 0 := by
  have minimum := bankMinAlloc_facts bank
  have header : u32 (request + sizeofMmNode) = request + 8 := by
    simp only [sizeofMmNode]
    exact u32_of_lt (by omega)
  have mask : (request + 8) &&& 7 = (request + 8) % 8 := and_low_mask _ 3
  have wrapped : u32 (request + 8 + 8) = request + 16 - 2 ^ 32 := by
    simp only [u32]
    omega
  simp only [blockNeed, header]
  rw [if_neg (by omega), alignUp, mask, if_pos (by omega), wrapped, alignDown_eq (by omega)]
  omega

/-- `mm_alloc` uses nothing of the request but the block size. -/
theorem mmAlloc_congr {first second : Nat} {bank : PhysmemE} {state : MmState}
    (same : blockNeed first (state.physicalMemories bank).minAlloc =
      blockNeed second (state.physicalMemories bank).minAlloc) :
    (mmAlloc first bank).run state = (mmAlloc second bank).run state := by
  simp only [mmAlloc]
  rw [Exec.run_bind_of_ok (EStateM.run_get state), Exec.run_bind_of_ok (EStateM.run_get state),
    same]

/-! ## A block of size zero -/

section ZeroSize

variable {linker : Linker} {config : Config} {state : MmState} {bank : PhysmemE}
  {partition : BankPartition linker bank}
  {partitions : (bank : PhysmemE) → BankPartition linker bank}

/-- A node in front of the first listed one is inserted behind the root. -/
theorem mmListInsert_returns {memory : ByteMemory} {node root last : Nat}
    (above : root ≤ node) (below : node ≤ last) (first : node ≤ nodeNext memory root) :
    ∃ after, (mmListInsert node root last).run memory = .ok () after := by
  have rounds : loopRounds = 2 ^ 32 - 1 + 1 := by
    rw [loopRounds]
    omega
  have seeks : seekBefore memory node loopRounds root = some root := by
    rw [rounds, seekBefore, if_neg (by omega)]
  simp only [mmListInsert]
  rw [Exec.run_bind_of_ok (EStateM.run_get memory), if_neg (by omega), seeks]
  change ∃ after, (if (mergeBackward memory root node).2 ≠ root then _ else _ :
    Exec ByteMemory Unit).run memory = _
  by_cases merged : (mergeBackward memory root node).2 ≠ root
  · rw [if_pos merged]
    exact ⟨_, rfl⟩
  · rw [if_neg merged]
    exact ⟨_, rfl⟩

/-- The first free block is taken with size zero, and goes back into the list. -/
theorem BankRep.takeBlock_zero (rep : BankRep linker state bank partition)
    {fit : Interval} {right : List Interval} (equal : partition.free = fit :: right) :
    ∃ after, (takeBlock 0 bank (linker.rootObj bank) fit.addr).run state =
      .ok (fit.addr + 8) after := by
  have fitFree : fit ∈ partition.free := by simp [equal]
  have bounds := partition.free_bounds fitFree
  have last := bankLast_lt linker bank
  have chain := rep.chain
  rw [equal] at chain
  simp only [Interval.stop] at bounds
  have pointer : u32 (fit.addr + sizeofMmNode) = fit.addr + 8 := by
    simp only [sizeofMmNode]
    exact u32_of_lt (by omega)
  have same : u32 (fit.addr + 0) = fit.addr := u32_of_lt (by omega)
  have onward : fit.addr ≤ nodeNext state.memory fit.addr := by
    rw [chain.2.2.next_eq]
    cases right with
    | nil =>
        rw [firstNode]
        omega
    | cons head rest =>
        have separated := partition.separated
        rw [equal] at separated
        have order := separated.head_lt (List.mem_cons_self)
        simp only [Interval.stop] at order
        rw [firstNode]
        omega
  let unlinked := setNext state.memory (linker.rootObj bank) (nodeNext state.memory fit.addr)
  let headed := remainderHeader bank unlinked fit.addr
    (u32Sub (mmGetSize (nodeSize state.memory fit.addr)) 0)
  let sized := setSize headed fit.addr (mmSetSize (nodeSize headed fit.addr) 0)
  have writes : WritesOnly (Header fit.addr) unlinked sized :=
    (remainderHeader_writes unlinked fit.addr _).trans (setSize_writes headed fit.addr _)
  have rootOutside : ∀ address, Header (linker.rootObj bank) address →
      ¬ Header fit.addr address := by
    intro address inRoot inFit
    simp only [Header] at *
    omega
  have next : nodeNext sized (linker.rootObj bank) = nodeNext state.memory fit.addr := by
    rw [nodeNext_of_writes writes rootOutside]
    exact nodeNext_setNext_same _ _ (nodeNext_lt _ _)
  obtain ⟨inserted, returns⟩ := @mmListInsert_returns sized fit.addr (linker.rootObj bank)
    (bankLast linker bank) (by omega) (by omega) (by rw [next]; exact onward)
  have inserts : (mmListInsert fit.addr (state.physicalMemories bank).rootNode
      (state.physicalMemories bank).lastNode).run sized = .ok () inserted := by
    rw [rep.rootNode, rep.lastNode]
    exact returns
  simp only [takeBlock]
  rw [Exec.run_bind_of_ok (EStateM.run_get state), Exec.run_bind_of_ok (run_onMemory_set _ _),
    pointer, same]
  by_cases splits : u32 (0 + (state.physicalMemories bank).minAlloc) ≤
      mmGetSize (nodeSize state.memory fit.addr)
  · rw [if_pos splits, Exec.run_bind_of_ok (run_onMemory_modify _ _),
      Exec.run_bind_of_ok (run_setPhysmem _ _ _), Exec.run_bind_of_ok (run_onMemory_modify _ _)]
    exact ⟨_, (Exec.run_bind_of_ok (run_onMemory_ok inserts)).trans rfl⟩
  · rw [if_neg splits]
    exact ⟨_, rfl⟩

/-- Every request is answered, and with a pointer when a block fits. -/
theorem Represents.returns_of_fit (rep : Represents linker config partitions) {request : Nat}
    (bound : request < 2 ^ 32) (bank : PhysmemE)
    (fits : ¬ NothingFits bank request (partitions bank).free) :
    ∃ pointer after, pointer ≠ 0 ∧ (mmAlloc request bank).run config.state = .ok pointer after := by
  have answered : ∀ other ≤ 0xFFFFFFF0,
      blockNeed request (bankMinAlloc bank) = blockNeed other (bankMinAlloc bank) →
      ∃ pointer after, pointer ≠ 0 ∧
        (mmAlloc request bank).run config.state = .ok pointer after := by
    intro other small same
    obtain ⟨pointer, after, returns, first⟩ := rep.first_fit small bank
    refine ⟨pointer, after, ?_, ?_⟩
    · intro null
      have missing := first.missing.mp null
      rw [← requestNeed_eq small, ← same] at missing
      exact fits missing
    · rw [← returns]
      apply mmAlloc_congr
      rw [(rep.banks bank).minAlloc]
      exact same
  by_cases small : request ≤ 0xFFFFFFF0
  · exact answered request small rfl
  · by_cases high : 2 ^ 32 - 8 ≤ request
    · exact answered 0 (by decide) (blockNeed_header_wraps high bound bank)
    · have zero := blockNeed_align_wraps (Nat.not_le.mp small) (Nat.not_le.mp high) bank
      cases list : (partitions bank).free with
      | nil =>
          refine absurd ?_ fits
          rw [list]
          exact fun _ member => absurd member List.not_mem_nil
      | cons fit right =>
          obtain ⟨after, returns⟩ := (rep.banks bank).takeBlock_zero list
          refine ⟨fit.addr + 8, after, by omega, ?_⟩
          rw [(rep.banks bank).mmAlloc_found list (fun _ member => absurd member List.not_mem_nil)
            (by rw [zero]; exact Nat.zero_le _), zero]
          exact returns

/-! ## pmalloc -/

theorem Represents.pmalloc_fits (rep : Represents linker config partitions) {count : Nat}
    (bank : PhysmemE)
    (fits : ¬ NothingFits bank (u32 (count * 512)) (partitions bank).free) :
    ∃ pointer after, pointer ≠ 0 ∧
      (Mm.pmalloc count bank).run config.state = .ok pointer after := by
  obtain ⟨pointer, after, notNull, allocates⟩ := rep.returns_of_fit (u32_lt _) bank fits
  refine ⟨pointer, after, notNull, ?_⟩
  rw [Mm.pmalloc, Exec.run_bind_of_ok allocates, if_neg notNull]
  rfl

theorem Represents.pmalloc_nothing (rep : Represents linker config partitions) {count : Nat}
    (nothing : NothingFits bank (u32 (count * 512)) (partitions bank).free) :
    (Mm.pmalloc count bank).run config.state =
      .error (.panic "palloc failed") config.state := by
  rw [Mm.pmalloc, Exec.run_bind_of_ok (rep.null (Intervals.allocate_eq_none_iff.mpr nothing))]
  rfl

/-! ## Every size -/

theorem Represents.tiled_all (rep : Represents linker config partitions) :
    ∀ bank, ∃ free, BankTiled config bank free :=
  fun bank => ⟨_, rep.tiled bank⟩

/-- The code of `mm_alloc` for a request made from a number of bytes. -/
theorem Represents.room_iff (rep : Represents linker config partitions) {bytes request : Nat}
    (bound : request < 2 ^ 32) (faithful : bytes ≤ 0xFFFFFFF0 → request = bytes)
    (bank : PhysmemE) :
    RoomGranted config bank bytes (mmAlloc request bank) ↔
      bytes ≤ 0xFFFFFFF0 ∨ NothingFits bank request (partitions bank).free := by
  constructor
  · intro granted
    by_contra neither
    rw [not_or] at neither
    obtain ⟨pointer, after, notNull, returns⟩ := rep.returns_of_fit bound bank neither.2
    have room := (granted pointer after returns notNull).1
    have size := blockOf_size_lt after pointer
    omega
  · intro condition pointer after returns notNull
    cases outcome : bankAllocate bank request (partitions bank).free with
    | none =>
        rw [rep.null outcome] at returns
        cases returns
        exact absurd rfl notNull
    | some result =>
        have fits : ¬ NothingFits bank request (partitions bank).free := by
          intro nothing
          have missing : bankAllocate bank request (partitions bank).free = none :=
            Intervals.allocate_eq_none_iff.mpr nothing
          rw [missing] at outcome
          cases outcome
        have small : bytes ≤ 0xFFFFFFF0 := condition.resolve_right fits
        have same := faithful small
        rw [same] at outcome returns
        obtain ⟨state, returns', block, changed, _⟩ := rep.alloc small outcome
        rw [returns] at returns'
        cases returns'
        rw [block]
        exact ⟨(changed.pointers _ List.mem_cons_self).2, changed.tiled_all⟩

/-- An allocation that panics instead of returning `NULL` has as much room. -/
theorem room_of_panic {bytes request : Nat} (reason : String) :
    RoomGranted config bank bytes (do
      let pointer ← mmAlloc request bank
      if pointer = 0 then
        Exec.panic reason
      return pointer) ↔ RoomGranted config bank bytes (mmAlloc request bank) := by
  constructor
  · intro granted pointer after returns notNull
    apply granted pointer after _ notNull
    rw [Exec.run_bind_of_ok returns, if_neg notNull]
    rfl
  · intro granted pointer after returns notNull
    apply granted pointer after _ notNull
    obtain ⟨middle, between, first, second⟩ := Exec.run_bind_ok.mp returns
    by_cases null : middle = 0
    · rw [if_pos null] at second
      cases second
    · rw [if_neg null] at second
      cases second
      exact first

end ZeroSize

/-- A pointer has the room asked for, and the banks stay tiled, exactly when the
number of bytes does not wrap or no block has the size it wraps to. -/
theorem room_granted_iff {linker : Linker} {config : Config} (reachable : Reachable linker config)
    (bank : PhysmemE) {free : List Interval} (listed : freeList config.state bank = some free)
    (size count : Nat) (sizeBound : size < 2 ^ 32) :
    (RoomGranted config bank size (mmAlloc size bank) ↔
        size ≤ 0xFFFFFFF0 ∨ NothingFits bank size free) ∧
      (RoomGranted config bank size (bmalloc size bank) ↔
        size ≤ 0xFFFFFFF0 ∨ NothingFits bank size free) ∧
      (RoomGranted config bank (512 * count) (pmalloc count bank) ↔
        512 * count ≤ 0xFFFFFFF0 ∨ NothingFits bank (u32 (count * 512)) free) := by
  obtain ⟨partitions, rep⟩ := reachable.represents
  rw [(rep.banks bank).freeList_eq] at listed
  cases listed
  have direct := rep.room_iff sizeBound (fun _ => rfl) bank
  refine ⟨direct, ?_, ?_⟩
  · rw [bmalloc, room_of_panic]
    exact direct
  · rw [pmalloc, room_of_panic]
    apply rep.room_iff (u32_lt _)
    intro small
    rw [u32_of_lt (by omega), Nat.mul_comm]

def startConfig : Config := ⟨mmInit lowHeap ⟨fun _ => 0, []⟩, []⟩

theorem startConfig_represents : Represents lowHeap startConfig (wholeBank lowHeap) :=
  represents_init lowHeap ⟨fun _ => 0, []⟩

theorem startConfig_listed :
    freeList startConfig.state .sram = some (wholeBank lowHeap .sram).free :=
  (startConfig_represents.banks .sram).freeList_eq

theorem room_granted_iff_start :
    (RoomGranted startConfig .sram 100 (mmAlloc 100 .sram) ↔
        100 ≤ 0xFFFFFFF0 ∨ NothingFits .sram 100 (wholeBank lowHeap .sram).free) ∧
      (RoomGranted startConfig .sram 100 (bmalloc 100 .sram) ↔
        100 ≤ 0xFFFFFFF0 ∨ NothingFits .sram 100 (wholeBank lowHeap .sram).free) ∧
      (RoomGranted startConfig .sram (512 * 2) (pmalloc 2 .sram) ↔
        512 * 2 ≤ 0xFFFFFFF0 ∨
          NothingFits .sram (u32 (2 * 512)) (wholeBank lowHeap .sram).free) :=
  room_granted_iff ⟨⟨fun _ => 0, []⟩, [], .nil _⟩ .sram startConfig_listed 100 2 (by decide)

theorem startConfig_fits {request : Nat}
    (small : blockNeed request (bankMinAlloc .sram) ≤ 262136) :
    ¬ NothingFits .sram request (wholeBank lowHeap .sram).free := by
  intro nothing
  have tooSmall := nothing ⟨0x20401000, 262136⟩ (by decide)
  simp only at tooSmall
  omega

/-- A wrapped size, a size rounded to zero and a wrapped page count are answered. -/
theorem wrapped_requests_granted :
    ¬ RoomGranted startConfig .sram 0xFFFFFFFF (mmAlloc 0xFFFFFFFF .sram) ∧
      ¬ RoomGranted startConfig .sram 0xFFFFFFF1 (mmAlloc 0xFFFFFFF1 .sram) ∧
      ¬ RoomGranted startConfig .sram (512 * 0x800001) (pmalloc 0x800001 .sram) := by
  have rep := startConfig_represents
  refine ⟨?_, ?_, ?_⟩
  · rw [rep.room_iff (by decide) (fun _ => rfl) .sram, not_or]
    exact ⟨by decide, startConfig_fits (by decide)⟩
  · rw [rep.room_iff (by decide) (fun _ => rfl) .sram, not_or]
    exact ⟨by decide, startConfig_fits (by decide)⟩
  · rw [pmalloc, room_of_panic, rep.room_iff (u32_lt _) (fun small => absurd small (by decide))
      .sram, not_or]
    exact ⟨by decide, startConfig_fits (by decide)⟩

end Vanilla.Mm
