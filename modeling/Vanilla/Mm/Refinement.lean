import Vanilla.Mm.Bank

/-! # `mm_alloc` and `mm_free` refine the partition

Each call is described by what it does to the partition of its own bank and by
the addresses it may store to.
-/

namespace Vanilla.Mm

open ByteMemory

/-! ## Running the parts of a call -/

variable {State Value : Type}

@[simp] theorem run_onMemory_set (memory : ByteMemory) (state : MmState) :
    (onMemory (set memory)).run state = .ok () { state with memory } := rfl

@[simp] theorem run_onMemory_modify (change : ByteMemory → ByteMemory) (state : MmState) :
    (onMemory (modify change)).run state =
      .ok () { state with memory := change state.memory } := rfl

@[simp] theorem run_setPhysmem (bank : PhysmemE) (physmem : Physmem) (state : MmState) :
    (setPhysmem bank physmem).run state = .ok ()
      { state with
        physicalMemories := Function.update state.physicalMemories bank physmem } := rfl

theorem run_onMemory_ok {body : Exec ByteMemory Value} {state : MmState} {value : Value}
    {memory : ByteMemory} (returns : body.run state.memory = .ok value memory) :
    (onMemory body).run state = .ok value { state with memory } :=
  Exec.run_zoom_ok returns

theorem run_physicalMemory (bank : PhysmemE) (state : State) :
    (physicalMemory bank.index : Exec State PhysmemE).run state = .ok bank state := by
  cases bank <;> rfl

/-! ## The size of a block -/

/-- The arithmetic of `mm_alloc` for requests that do not wrap. -/
theorem blockNeed_eq {request minAlloc : Nat} (requestBound : request ≤ 0xFFFFFFF0)
    (minBound : minAlloc ≤ 256) :
    blockNeed request minAlloc = (max (request + 8) minAlloc + 7) / 8 * 8 := by
  have header : u32 (request + sizeofMmNode) = request + 8 := by
    simp only [sizeofMmNode]
    exact u32_of_lt (by omega)
  simp only [blockNeed, header]
  split
  · rw [alignUp_eq (by omega), max_eq_right (by omega)]
  · rw [alignUp_eq (by omega), max_eq_left (by omega)]

theorem blockNeed_facts {request minAlloc : Nat} (requestBound : request ≤ 0xFFFFFFF0)
    (minBound : minAlloc ≤ 256) :
    8 ∣ blockNeed request minAlloc ∧ request + 8 ≤ blockNeed request minAlloc ∧
      minAlloc ≤ blockNeed request minAlloc := by
  rw [blockNeed_eq requestBound minBound]
  omega

/-! ## Allocation -/

/-- What a call may store to: the root of its bank and the blocks it owns. An
allocation owns the free blocks, a release also the block it gives back. -/
def CallFootprint (linker : Linker) (bank : PhysmemE) (owned : List Interval)
    (address : Nat) : Prop :=
  Header (linker.rootObj bank) address ∨ Intervals.Covers owned address

/-- A call on one bank stores inside its footprint and updates one record. -/
structure CallEffect (linker : Linker) (bank : PhysmemE) (owned : List Interval)
    (state after : MmState) : Prop where
  writes : WritesOnly (CallFootprint linker bank owned) state.memory after.memory
  records : ∀ other, other ≠ bank →
    after.physicalMemories other = state.physicalMemories other

/-- The abstract result of a request on a bank. -/
def bankAllocate (bank : PhysmemE) (request : Nat) (free : List Interval) :
    Option (Interval × List Interval) :=
  Intervals.allocate (blockNeed request (bankMinAlloc bank)) (bankMinAlloc bank) free

section Alloc

variable {linker : Linker} {state : MmState} {bank : PhysmemE}
  {partition : BankPartition linker bank} {request : Nat}

/-- The partition after a successful request. -/
def BankPartition.take (partition : BankPartition linker bank)
    (requestBound : request ≤ 0xFFFFFFF0) {taken : Interval} {remaining : List Interval}
    (allocated : bankAllocate bank request partition.free = some (taken, remaining)) :
    BankPartition linker bank :=
  Partition.take partition
    (Nat.lt_of_lt_of_le (Nat.succ_pos _)
      (blockNeed_facts requestBound (bankMinAlloc_facts bank).2.1).2.1)
    (blockNeed_facts requestBound (bankMinAlloc_facts bank).2.1).1
    (Nat.lt_of_lt_of_le (by decide) (bankMinAlloc_facts bank).1) allocated

theorem BankPartition.free_nodes_apart (partition : BankPartition linker bank) :
    (linker.rootObj bank :: partition.free.map Interval.addr).Pairwise NodesApart := by
  have below := rootObj_below linker bank
  refine List.pairwise_cons.mpr ⟨?_, List.pairwise_map.mpr ?_⟩
  · intro addr member
    rcases List.mem_map.mp member with ⟨gap, gapMember, rfl⟩
    have range := partition.free_inside gapMember
    exact .inl (by omega)
  · apply partition.separated.gaps.imp_of_mem
    intro left right leftMember _ order
    have large := free_size_ge partition leftMember
    simp only [Interval.stop] at order
    exact .inl (by omega)

/-- A request that fits no free block returns `NULL` and changes nothing. -/
theorem mmAlloc_null (rep : BankRep linker state bank partition)
    (missing : bankAllocate bank request partition.free = none) :
    (mmAlloc request bank).run state = .ok 0 state := by
  have small := Intervals.allocate_eq_none_iff.mp missing
  have below := rootObj_below linker bank
  have order := bankStart_lt_bankLast linker bank
  have total := free_total_le partition
  have short := Intervals.length_le_total partition.separated.positive
  have search : findFit state.memory (blockNeed request (bankMinAlloc bank)) loopRounds
      (linker.rootObj bank) (nodeNext state.memory (linker.rootObj bank)) =
      some (endNode (linker.rootObj bank) partition.free, bankLast linker bank) := by
    apply findFit_missing rep.lastNext (by omega) _ _ _ rep.chain
    · intro gap member
      have range := partition.free_inside member
      exact ⟨small gap member, by omega⟩
    · simp only [loopRounds]
      omega
  simp only [mmAlloc]
  rw [Exec.run_bind_of_ok (EStateM.run_get state), rep.minAlloc, rep.rootNode, search]
  by_cases full : u32Sub (state.physicalMemories bank).size
      (state.physicalMemories bank).allocated < blockNeed request (bankMinAlloc bank)
  · rw [if_pos full, EStateM.run_pure]
  · rw [if_neg full]
    change EStateM.run (ite _ _ _) _ = _
    rw [if_pos rep.lastNext, EStateM.run_pure]

/-- Every block of the partition with its header, below 2^32 and with a size
that fits the 28 bits. -/
theorem BankPartition.free_bounds (partition : BankPartition linker bank) {gap : Interval}
    (member : gap ∈ partition.free) :
    linker.rootObj bank + 8 ≤ gap.addr ∧ 8 ≤ gap.size ∧ gap.stop ≤ bankLast linker bank ∧
      gap.size < 2 ^ 28 := by
  have below := rootObj_below linker bank
  have range := partition.free_inside member
  have large := free_size_ge partition member
  have bound := Intervals.size_le_total member
  have total := free_total_le partition
  exact ⟨by omega, large, range.2, by omega⟩

/-- The blocks around a fit are free too, and apart from it. -/
theorem BankPartition.around (partition : BankPartition linker bank)
    {left right : List Interval} {fit gap : Interval}
    (equal : partition.free = left ++ fit :: right) (member : gap ∈ left ++ right) :
    gap ∈ partition.free ∧ gap.Disjoint fit := by
  have separated := partition.separated
  rw [equal] at separated
  have gapFree : gap ∈ partition.free := by
    rw [equal]
    rcases List.mem_append.mp member with member | member <;> simp [member]
  refine ⟨gapFree, Interval.disjoint_of_no_common
    (partition.separated.positive gap gapFree) (separated.positive fit (by simp)) ?_⟩
  exact fun point inside inFit => separated.not_covers_erase inFit ⟨gap, member, inside⟩

/-- The search finds the block that first fit takes. -/
theorem BankRep.finds (rep : BankRep linker state bank partition) {need : Nat}
    {left right : List Interval} {fit : Interval}
    (equal : partition.free = left ++ fit :: right)
    (small : ∀ gap ∈ left, gap.size < need) (large : need ≤ fit.size) :
    findFit state.memory need loopRounds (linker.rootObj bank)
        (nodeNext state.memory (linker.rootObj bank)) =
      some (endNode (linker.rootObj bank) left, fit.addr) := by
  have order := bankStart_lt_bankLast linker bank
  have total := free_total_le partition
  have short := Intervals.length_le_total partition.separated.positive
  rw [equal, List.length_append, ← equal] at short
  have linked : ∀ gap ∈ partition.free, gap.addr ≠ 0 := by
    intro gap member
    have bounds := partition.free_bounds member
    omega
  refine findFit_found large (partition.free_bounds (by simp [equal])).2.2.2 ?_ (by omega)
    left _ _ (equal ▸ rep.chain) ?_ ?_
  · exact fun gap member => linked gap (by rw [equal]; exact List.mem_append_right _ member)
  · exact fun gap member =>
      ⟨small gap member, linked gap (by rw [equal]; exact List.mem_append_left _ member)⟩
  · simp only [loopRounds]
    omega

/-- A fit is found and room is left: `mm_alloc` goes on to take the block. -/
theorem BankRep.mmAlloc_found (rep : BankRep linker state bank partition)
    {left right : List Interval} {fit : Interval}
    (equal : partition.free = left ++ fit :: right)
    (small : ∀ gap ∈ left, gap.size < blockNeed request (bankMinAlloc bank))
    (large : blockNeed request (bankMinAlloc bank) ≤ fit.size) :
    (mmAlloc request bank).run state =
      (takeBlock (blockNeed request (bankMinAlloc bank)) bank
        (endNode (linker.rootObj bank) left) fit.addr).run state := by
  have fitFree : fit ∈ partition.free := by simp [equal]
  have enough : ¬ u32Sub (state.physicalMemories bank).size
      (state.physicalMemories bank).allocated < blockNeed request (bankMinAlloc bank) := by
    rw [rep.remaining_eq]
    exact Nat.not_lt.mpr (Nat.le_trans large (Intervals.size_le_total fitFree))
  have linked : nodeNext state.memory fit.addr ≠ 0 := by
    have back := ((chain_append_cons fit right _ left).mp (equal ▸ rep.chain)).2.2
    rw [Chain.next_eq back]
    have order := bankStart_lt_bankLast linker bank
    cases right with
    | nil =>
        simp only [firstNode]
        omega
    | cons head rest =>
        have headFree : head ∈ partition.free := by simp [equal]
        have bounds := partition.free_bounds headFree
        simp only [firstNode]
        omega
  simp only [mmAlloc]
  rw [Exec.run_bind_of_ok (EStateM.run_get state), rep.minAlloc, rep.rootNode,
    rep.finds equal small large, if_neg enough]
  change EStateM.run (ite _ _ _) _ = _
  rw [if_neg linked]

/-- Everything `mm_alloc` writes before it inserts the remainder of a split. -/
def splitMemory (bank : PhysmemE) (memory : ByteMemory) (iterPrev iter size rest : Nat) :
    ByteMemory :=
  let memory := setNext memory iterPrev (nodeNext memory iter)
  let memory := remainderHeader bank memory (iter + size) rest
  setSize memory iter (mmSetSize (nodeSize memory iter) size)

theorem nodeSize_remainderHeader (memory : ByteMemory) (node : Nat) {size : Nat}
    (sizeBound : size < 2 ^ 28) :
    nodeSize (remainderHeader bank memory node size) node = tagged bank.index size := by
  have region := bankIndex_lt bank
  have low : nodeSize memory node % 2 ^ 28 < 2 ^ 28 := Nat.mod_lt _ (by decide)
  have tagBound := tagged_lt region low
  simp only [remainderHeader, mmSetRegion_eq]
  rw [nodeSize_setSize_same _ _ tagBound, mmSetSize_eq tagBound sizeBound]
  have tag : tagged bank.index (nodeSize memory node % 2 ^ 28) / 2 ^ 28 = bank.index := by
    simp only [tagged]
    omega
  rw [tag, nodeSize_setSize_same _ _ (tagged_lt region sizeBound)]

theorem remainderHeader_writes (memory : ByteMemory) (node size : Nat) :
    WritesOnly (Header node) memory (remainderHeader bank memory node size) :=
  (setSize_writes memory node _).trans (setSize_writes _ node _)

/-! ### Unlinking a free block -/

theorem BankPartition.fit_apart (partition : BankPartition linker bank)
    {left right : List Interval} {fit gap : Interval}
    (equal : partition.free = left ++ fit :: right) (member : gap ∈ left ++ right) :
    NodesApart fit.addr gap.addr := by
  rcases partition.around equal member with ⟨gapFree, apart⟩
  have large := (partition.free_bounds gapFree).2.1
  have fitLarge := (partition.free_bounds (show fit ∈ partition.free by simp [equal])).2.1
  simp only [Interval.Disjoint, Interval.stop, NodesApart] at *
  omega

theorem BankPartition.iter_apart (partition : BankPartition linker bank)
    {left right : List Interval} {fit : Interval}
    (equal : partition.free = left ++ fit :: right) :
    NodesApart (endNode (linker.rootObj bank) left) fit.addr := by
  rcases endNode_mem (linker.rootObj bank) left with same | ⟨gap, member, same⟩
  · rw [same]
    exact .inl (partition.free_bounds (show fit ∈ partition.free by simp [equal])).1
  · rw [same]
    exact (partition.fit_apart equal (List.mem_append_left _ member)).symm

/-- The node in front of a free block belongs to the allocator. -/
theorem BankPartition.iter_footprint (partition : BankPartition linker bank)
    {left right : List Interval} {fit : Interval}
    (equal : partition.free = left ++ fit :: right) {address : Nat}
    (inside : Header (endNode (linker.rootObj bank) left) address) :
    CallFootprint linker bank partition.free address := by
  rcases endNode_mem (linker.rootObj bank) left with same | ⟨gap, member, same⟩
  · exact .inl (same ▸ inside)
  · exact .inr (free_header_covered partition
      (partition.around equal (List.mem_append_left _ member)).1 (same ▸ inside))

theorem BankRep.rootSize_unlinked (rep : BankRep linker state bank partition)
    {left right : List Interval} {fit : Interval}
    (equal : partition.free = left ++ fit :: right) (next : Nat) :
    nodeSize (setNext state.memory (endNode (linker.rootObj bank) left) next)
      (linker.rootObj bank) = 0 := by
  rcases endNode_mem (linker.rootObj bank) left with same | ⟨gap, member, same⟩
  · rw [same, nodeSize_setNext_same]
    exact rep.rootSize
  · have bounds := partition.free_bounds
      (partition.around equal (List.mem_append_left _ member)).1
    rw [same, nodeSize_setNext_apart _ _ (.inr bounds.1)]
    exact rep.rootSize

/-- Unlinking the fit and writing both headers makes the remainder ready to be
inserted, and stores only inside the free blocks and the root. -/
theorem BankRep.splitMemory_ready (rep : BankRep linker state bank partition)
    {need : Nat} {left right : List Interval} {fit : Interval}
    (equal : partition.free = left ++ fit :: right) (needLarge : 8 ≤ need)
    (fits : need + 8 ≤ fit.size) {split : ByteMemory}
    (splits : split = splitMemory bank state.memory (endNode (linker.rootObj bank) left)
      fit.addr need (fit.size - need)) :
    InsertReady split bank.index (linker.rootObj bank) (bankLast linker bank) (left ++ right)
        ⟨fit.addr + need, fit.size - need⟩ ∧
      nodeSize split fit.addr = tagged bank.index need ∧
      WritesOnly (CallFootprint linker bank partition.free) state.memory split := by
  have fitFree : fit ∈ partition.free := by simp [equal]
  have fitBounds := partition.free_bounds fitFree
  have total := free_total_le partition
  have separated := partition.separated
  rw [equal] at separated
  have nodes := partition.free_nodes_apart
  rw [equal] at nodes
  have last := bankLast_lt linker bank
  have restFree : ∀ gap ∈ left ++ right, gap ∈ partition.free :=
    fun gap member => (partition.around equal member).1
  have cutApart : ∀ gap ∈ left ++ right, NodesApart (fit.addr + need) gap.addr := by
    intro gap member
    have apart := (partition.around equal member).2
    have large := (partition.free_bounds (restFree gap member)).2.1
    simp only [Interval.Disjoint, Interval.stop, NodesApart] at *
    omega
  -- the three stores, one after the other
  let unlinked := setNext state.memory (endNode (linker.rootObj bank) left)
    (nodeNext state.memory fit.addr)
  let cut := remainderHeader bank unlinked (fit.addr + need) (fit.size - need)
  have unlinkedChain : Chain unlinked bank.index (linker.rootObj bank) (left ++ right)
      (bankLast linker bank) := Chain.unlink (equal ▸ rep.chain) nodes
  have iterWrites : WritesOnly (CallFootprint linker bank partition.free) state.memory
      unlinked :=
    (setNext_writes state.memory _ _).mono fun _ inside => partition.iter_footprint equal inside
  have fitHeader : nodeSize cut fit.addr = tagged bank.index fit.size := by
    have apart : NodesApart (fit.addr + need) fit.addr := .inr (by omega)
    rw [nodeSize_of_writes (remainderHeader_writes unlinked _ _) apart.not_header,
      nodeSize_setNext_apart _ _ (partition.iter_apart equal), rep.chain.nodeSize_eq fitFree]
  have region := bankIndex_lt bank
  have result : split = setSize cut fit.addr (tagged bank.index need) := by
    have tag : tagged bank.index fit.size / 2 ^ 28 = bank.index := by
      simp only [tagged]
      omega
    rw [splits]
    simp only [splitMemory]
    rw [show remainderHeader bank _ (fit.addr + need) (fit.size - need) = cut from rfl,
      fitHeader, mmSetSize_eq (tagged_lt region fitBounds.2.2.2) (by omega), tag]
  have tailWrites : WritesOnly
      (fun address => Header (fit.addr + need) address ∨ Header fit.addr address)
      unlinked split := by
    rw [result]
    exact ((remainderHeader_writes unlinked _ _).mono fun _ => .inl).trans
      ((setSize_writes cut _ _).mono fun _ => .inr)
  have rootApart : ∀ address, Header (linker.rootObj bank) address →
      ¬ (Header (fit.addr + need) address ∨ Header fit.addr address) := by
    simp only [Header]
    omega
  refine ⟨?_, ?_, ?_⟩
  · exact {
      chain := by
        apply unlinkedChain.frame tailWrites rootApart
        intro gap member address inside written
        rcases written with inCut | inFit
        · exact (cutApart gap member).not_header address inside inCut
        · exact (partition.fit_apart equal member).not_header address inside inFit
      rootSize := by
        rw [nodeSize_of_writes tailWrites rootApart]
        exact rep.rootSize_unlinked equal _
      blockSize := by
        have apart : NodesApart fit.addr (fit.addr + need) := .inl (by omega)
        simp only [result]
        rw [nodeSize_setSize_apart _ _ apart]
        exact nodeSize_remainderHeader unlinked _ (by omega)
      separated := separated.erase
      disjoint := by
        intro gap member
        have apart := (partition.around equal member).2
        simp only [Interval.Disjoint, Interval.stop] at *
        omega
      room := by
        intro interval member
        rcases List.mem_cons.mp member with same | member
        · simp only [same, Interval.stop] at *
          omega
        · have bounds := partition.free_bounds (restFree interval member)
          exact ⟨bounds.1, bounds.2.1, bounds.2.2.1⟩
      lastBound := by omega
      regionBound := region
      sizes := by
        rw [equal, Intervals.total_append, Intervals.total_cons] at total
        rw [Intervals.total_append]
        simp only
        omega }
  · rw [result]
    exact nodeSize_setSize_same _ _ (tagged_lt region (by omega))
  · apply iterWrites.trans
    apply tailWrites.mono
    intro address inside
    refine .inr ⟨fit, fitFree, ?_⟩
    simp only [Header, Interval.Holds, Interval.stop] at *
    omega

/-- What the memory must look like after a block was taken. -/
structure Taken (linker : Linker) (state : MmState) (bank : PhysmemE)
    (partition : BankPartition linker bank) (taken : Interval) (remaining : List Interval)
    (memory : ByteMemory) : Prop where
  chain : Chain memory bank.index (linker.rootObj bank) remaining (bankLast linker bank)
  mark : nodeNext memory taken.addr = 0xC0DEBABE
  header : nodeSize memory taken.addr = tagged bank.index taken.size
  writes : WritesOnly (CallFootprint linker bank partition.free) state.memory memory
  rootSize : nodeSize memory (linker.rootObj bank) = 0

/-- The end of both branches: mark the block. -/
theorem Taken.marked {taken : Interval} {remaining : List Interval} {memory : ByteMemory}
    (chain : Chain memory bank.index (linker.rootObj bank) remaining (bankLast linker bank))
    (header : nodeSize memory taken.addr = tagged bank.index taken.size)
    (writes : WritesOnly (CallFootprint linker bank partition.free) state.memory memory)
    (rootSize : nodeSize memory (linker.rootObj bank) = 0)
    (inside : ∀ address, Header taken.addr address → Intervals.Covers partition.free address)
    (apart : ∀ gap ∈ remaining, NodesApart taken.addr gap.addr)
    (above : linker.rootObj bank + 8 ≤ taken.addr) :
    Taken linker state bank partition taken remaining
      (setNext memory taken.addr 0xC0DEBABE) where
  chain := chain.frame (setNext_writes memory _ _) (NodesApart.symm (.inl above)).not_header
    fun gap member => (apart gap member).not_header
  mark := nodeNext_setNext_same memory _ (by decide)
  header := (nodeSize_setNext_same memory _ _).trans header
  writes := writes.trans ((setNext_writes memory _ _).mono fun address inHeader =>
    .inr (inside address inHeader))
  rootSize := (nodeSize_setNext_apart memory _ (.inr above)).trans rootSize

theorem BankRep.takeBlock_split (rep : BankRep linker state bank partition)
    {need : Nat} {left right : List Interval} {fit : Interval}
    (equal : partition.free = left ++ fit :: right) (needLarge : 8 ≤ need)
    (splits : need + bankMinAlloc bank ≤ fit.size) :
    ∃ after, (takeBlock need bank (endNode (linker.rootObj bank) left) fit.addr).run state =
        .ok (fit.addr + 8) ⟨after, Function.update state.physicalMemories bank
          { state.physicalMemories bank with
            allocated := u32 ((state.physicalMemories bank).allocated + need) }⟩ ∧
      Taken linker state bank partition ⟨fit.addr, need⟩
        (Intervals.release ⟨fit.addr + need, fit.size - need⟩ (left ++ right)) after := by
  have fitFree : fit ∈ partition.free := by simp [equal]
  have fitBounds := partition.free_bounds fitFree
  have minimum := bankMinAlloc_facts bank
  have last := bankLast_lt linker bank
  have separated := partition.separated
  rw [equal] at separated
  simp only [Interval.stop] at fitBounds
  rcases rep.splitMemory_ready equal needLarge (by omega) rfl with ⟨ready, header, writes⟩
  rcases mmListInsert_spec ready with ⟨inserted, returns, chain, rootSize, insertWrites⟩
  refine ⟨setNext inserted fit.addr 0xC0DEBABE, ?_, ?_⟩
  · have size : mmGetSize (nodeSize state.memory fit.addr) = fit.size := by
      rw [rep.chain.nodeSize_eq fitFree, mmGetSize_tagged _ fitBounds.2.2.2]
    have room : u32 (need + (state.physicalMemories bank).minAlloc) ≤ fit.size := by
      rw [rep.minAlloc, u32_of_lt (by omega)]
      exact splits
    have newNode : u32 (fit.addr + need) = fit.addr + need := u32_of_lt (by omega)
    have pointer : u32 (fit.addr + sizeofMmNode) = fit.addr + 8 := by
      simp only [sizeofMmNode]
      exact u32_of_lt (by omega)
    have rest : u32Sub fit.size need = fit.size - need := u32Sub_of_le (by omega) (by omega)
    have inserts : (mmListInsert (fit.addr + need) (state.physicalMemories bank).rootNode
        (state.physicalMemories bank).lastNode).run (splitMemory bank state.memory
          (endNode (linker.rootObj bank) left) fit.addr need (fit.size - need)) =
        .ok () inserted := by
      rw [rep.rootNode, rep.lastNode]
      exact returns
    simp only [takeBlock]
    rw [Exec.run_bind_of_ok (EStateM.run_get state), Exec.run_bind_of_ok (run_onMemory_set _ _),
      size, if_pos room, newNode, pointer, rest]
    rw [Exec.run_bind_of_ok (run_onMemory_modify _ _), Exec.run_bind_of_ok (run_setPhysmem _ _ _),
      Exec.run_bind_of_ok (run_onMemory_modify _ _)]
    refine (Exec.run_bind_of_ok (run_onMemory_ok inserts)).trans ?_
    rw [Exec.run_bind_of_ok (run_onMemory_modify _ _), EStateM.run_pure]
  · have within : ∀ address, Interval.Holds ⟨fit.addr, fit.size⟩ address →
        Intervals.Covers partition.free address := fun address inside => ⟨fit, fitFree, inside⟩
    have insertInside : WritesOnly (CallFootprint linker bank partition.free)
        (splitMemory bank state.memory (endNode (linker.rootObj bank) left) fit.addr need
          (fit.size - need)) inserted := by
      apply insertWrites.mono
      intro address inside
      rcases inside with inRoot | inRest | ⟨gap, member, inGap⟩
      · exact .inl inRoot
      · apply Or.inr
        apply within
        simp only [Header, Interval.Holds, Interval.stop] at *
        omega
      · exact .inr (free_header_covered partition (by
          rw [equal]
          rcases List.mem_append.mp member with member | member <;> simp [member]) inGap)
    have outside : ∀ address, Header fit.addr address →
        ¬ InsertFootprint (linker.rootObj bank) (left ++ right)
          ⟨fit.addr + need, fit.size - need⟩ address := by
      intro address inFit written
      rcases written with inRoot | inRest | ⟨gap, member, inGap⟩
      · simp only [Header] at *
        omega
      · simp only [Header] at *
        omega
      · have apart := (partition.around equal member).2
        have large := (partition.free_bounds (partition.around equal member).1).2.1
        simp only [Header, Interval.Disjoint, Interval.stop] at *
        omega
    apply Taken.marked chain
    · exact (nodeSize_of_writes insertWrites outside).trans header
    · exact writes.trans insertInside
    · exact rootSize
    · intro address inside
      apply within
      simp only [Header, Interval.Holds, Interval.stop] at *
      omega
    · intro gap member
      rcases Intervals.addr_of_mem_release member with same | ⟨old, oldMember, same⟩
      · rw [same]
        exact .inl (by simp only; omega)
      · have apart := (partition.around equal oldMember).2
        have large := (partition.free_bounds (partition.around equal oldMember).1).2.1
        simp only [NodesApart, Interval.Disjoint, Interval.stop] at *
        omega
    · exact fitBounds.1

theorem BankRep.takeBlock_whole (rep : BankRep linker state bank partition)
    {need : Nat} {left right : List Interval} {fit : Interval}
    (equal : partition.free = left ++ fit :: right) (needBound : need ≤ fit.size)
    (whole : fit.size < need + bankMinAlloc bank) :
    ∃ after, (takeBlock need bank (endNode (linker.rootObj bank) left) fit.addr).run state =
        .ok (fit.addr + 8) ⟨after, Function.update state.physicalMemories bank
          { state.physicalMemories bank with
            allocated := u32 ((state.physicalMemories bank).allocated + fit.size) }⟩ ∧
      Taken linker state bank partition fit (left ++ right) after := by
  have fitFree : fit ∈ partition.free := by simp [equal]
  have fitBounds := partition.free_bounds fitFree
  have minimum := bankMinAlloc_facts bank
  have last := bankLast_lt linker bank
  have nodes := partition.free_nodes_apart
  rw [equal] at nodes
  simp only [Interval.stop] at fitBounds
  refine ⟨setNext (setNext state.memory (endNode (linker.rootObj bank) left)
    (nodeNext state.memory fit.addr)) fit.addr 0xC0DEBABE, ?_, ?_⟩
  · have size : mmGetSize (nodeSize state.memory fit.addr) = fit.size := by
      rw [rep.chain.nodeSize_eq fitFree, mmGetSize_tagged _ fitBounds.2.2.2]
    have small : ¬ u32 (need + (state.physicalMemories bank).minAlloc) ≤ fit.size := by
      rw [rep.minAlloc, u32_of_lt (by omega)]
      omega
    have pointer : u32 (fit.addr + sizeofMmNode) = fit.addr + 8 := by
      simp only [sizeofMmNode]
      exact u32_of_lt (by omega)
    simp only [takeBlock]
    rw [Exec.run_bind_of_ok (EStateM.run_get state), Exec.run_bind_of_ok (run_onMemory_set _ _),
      size, if_neg small, pointer]
    rw [Exec.run_bind_of_ok (run_setPhysmem _ _ _), Exec.run_bind_of_ok (run_onMemory_modify _ _),
      EStateM.run_pure]
  · apply Taken.marked (Chain.unlink (equal ▸ rep.chain) nodes)
    · rw [nodeSize_setNext_apart _ _ (partition.iter_apart equal),
        rep.chain.nodeSize_eq fitFree]
    · exact (setNext_writes state.memory _ _).mono fun _ inside =>
        partition.iter_footprint equal inside
    · exact rep.rootSize_unlinked equal _
    · exact fun address inside => free_header_covered partition fitFree inside
    · exact fun gap member => partition.fit_apart equal member
    · exact fitBounds.1

/-- The record after a block was taken, and the partition it stands for. -/
theorem BankRep.taken (rep : BankRep linker state bank partition)
    (requestBound : request ≤ 0xFFFFFFF0) {taken : Interval} {remaining : List Interval}
    (allocated : bankAllocate bank request partition.free = some (taken, remaining))
    {memory : ByteMemory} (result : Taken linker state bank partition taken remaining memory) :
    BankRep linker ⟨memory, Function.update state.physicalMemories bank
        { state.physicalMemories bank with
          allocated := u32 ((state.physicalMemories bank).allocated + taken.size) }⟩ bank
      (partition.take requestBound allocated) := by
  have liveOutside : ∀ block ∈ partition.live, ∀ address, Header block.addr address →
      ¬ CallFootprint linker bank partition.free address := by
    intro block member address inside written
    have holds := live_header_holds partition member inside
    have below := rootObj_below linker bank
    have range := partition.live_inside member
    rcases written with inRoot | covered
    · simp only [Header, Interval.Holds] at *
      omega
    · exact partition.exclusive address covered ⟨block, member, holds⟩
  have lastOutside : ∀ address, Header (bankLast linker bank) address →
      ¬ CallFootprint linker bank partition.free address := by
    intro address inside written
    have below := rootObj_below linker bank
    have order := bankStart_lt_bankLast linker bank
    rcases written with inRoot | ⟨gap, member, holds⟩
    · simp only [Header] at *
      omega
    · have range := partition.free_inside member
      simp only [Header, Interval.Holds] at *
      omega
  exact {
    startAddr := by simpa using rep.startAddr
    size := by simpa using rep.size
    allocated := by
      have conserved := (partition.take requestBound allocated).conserved
      have bound := bankSize_lt linker bank
      have grown : Intervals.total (partition.take requestBound allocated).live =
          taken.size + Intervals.total partition.live := Intervals.total_cons ..
      simp only [Function.update_self, rep.allocated]
      rw [u32_of_lt (by omega)]
      omega
    minAlloc := by simpa using rep.minAlloc
    rootNode := by simpa using rep.rootNode
    lastNode := by simpa using rep.lastNode
    chain := result.chain
    rootSize := result.rootSize
    lastNext := (nodeNext_of_writes result.writes lastOutside).trans rep.lastNext
    live := by
      intro block member
      rcases List.mem_cons.mp member with rfl | member
      · exact ⟨result.mark, result.header⟩
      · have outside := liveOutside block member
        exact ⟨(nodeNext_of_writes result.writes outside).trans (rep.live block member).1,
          (nodeSize_of_writes result.writes outside).trans (rep.live block member).2⟩ }

/-- `mm_alloc` refines `Partition.take`. -/
theorem mmAlloc_some (rep : BankRep linker state bank partition)
    (requestBound : request ≤ 0xFFFFFFF0) {taken : Interval} {remaining : List Interval}
    (allocated : bankAllocate bank request partition.free = some (taken, remaining)) :
    ∃ after, (mmAlloc request bank).run state = .ok (taken.addr + 8) after ∧
      BankRep linker after bank (partition.take requestBound allocated) ∧
      CallEffect linker bank partition.free state after := by
  have facts := blockNeed_facts requestBound (bankMinAlloc_facts bank).2.1
  rcases Intervals.allocate_eq_some partition.separated allocated with
    ⟨left, fit, right, equal, small, large, outcome⟩
  have found := rep.mmAlloc_found equal small large
  have taking : ∃ memory, (mmAlloc request bank).run state = .ok (taken.addr + 8)
        ⟨memory, Function.update state.physicalMemories bank
          { state.physicalMemories bank with
            allocated := u32 ((state.physicalMemories bank).allocated + taken.size) }⟩ ∧
      Taken linker state bank partition taken remaining memory := by
    rcases outcome with ⟨splits, rfl, rfl⟩ | ⟨whole, rfl, rfl⟩
    · rw [found]
      exact rep.takeBlock_split equal (by omega) splits
    · rw [found]
      exact rep.takeBlock_whole equal large whole
  rcases taking with ⟨memory, returns, result⟩
  refine ⟨_, returns, rep.taken requestBound allocated result, result.writes, ?_⟩
  intro other different
  exact Function.update_of_ne different ..

end Alloc

/-! ## Release -/

section Free

variable {linker : Linker} {state : MmState} {bank : PhysmemE}
  {partition : BankPartition linker bank} {block : Interval}

theorem BankRep.free_ready (rep : BankRep linker state bank partition)
    (member : block ∈ partition.live) :
    InsertReady state.memory bank.index (linker.rootObj bank) (bankLast linker bank)
      partition.free block where
  chain := rep.chain
  rootSize := rep.rootSize
  blockSize := (rep.live block member).2
  separated := partition.separated
  disjoint := fun _ gapMember => partition.apart gapMember member
  room := by
    intro interval intervalMember
    rcases List.mem_cons.mp intervalMember with rfl | gapMember
    · have below := rootObj_below linker bank
      have range := partition.live_inside member
      exact ⟨by omega, live_size_ge partition member, range.2⟩
    · have bounds := partition.free_bounds gapMember
      exact ⟨bounds.1, bounds.2.1, bounds.2.2.1⟩
  lastBound := by
    have last := bankLast_lt linker bank
    omega
  regionBound := bankIndex_lt bank
  sizes := by
    have conserved := partition.conserved
    have bound := Intervals.size_le_total member
    have size := bankSize_lt linker bank
    omega

/-- A live block and the size read from its header. -/
theorem BankRep.live_size (rep : BankRep linker state bank partition)
    (member : block ∈ partition.live) :
    mmGetRegion (nodeSize state.memory block.addr) = bank.index ∧
      mmGetSize (nodeSize state.memory block.addr) = block.size := by
  have conserved := partition.conserved
  have bound := Intervals.size_le_total member
  have size := bankSize_lt linker bank
  have header := (rep.live block member).2
  rw [header]
  exact ⟨mmGetRegion_tagged (bankIndex_lt bank) (by omega), mmGetSize_tagged _ (by omega)⟩

/-- What `mm_free` does to a live block, once the list takes it back. -/
theorem BankRep.run_mmFree (rep : BankRep linker state bank partition)
    (member : block ∈ partition.live) {inserted : ByteMemory}
    (returns : (mmListInsert block.addr (linker.rootObj bank) (bankLast linker bank)).run
      state.memory = .ok () inserted) :
    (mmFree (block.addr + 8)).run state = .ok ()
      ⟨inserted, Function.update state.physicalMemories bank
        { state.physicalMemories bank with
          allocated := u32Sub (state.physicalMemories bank).allocated block.size }⟩ := by
  have range := partition.live_inside member
  have last := bankLast_lt linker bank
  simp only [Interval.stop] at range
  have node : u32Sub (block.addr + 8) sizeofMmNode = block.addr := by
    simp only [sizeofMmNode]
    rw [u32Sub_of_le (by omega) (by omega)]
    omega
  have notNull : ¬ block.addr + 8 = 0 := by omega
  have mark := (rep.live block member).1
  have inserts : (mmListInsert block.addr (state.physicalMemories bank).rootNode
      (state.physicalMemories bank).lastNode).run state.memory = .ok () inserted := by
    rw [rep.rootNode, rep.lastNode]
    exact returns
  simp only [mmFree]
  rw [if_neg notNull]
  rw [Exec.run_bind_of_ok (EStateM.run_get state), node,
    if_neg (fun different => different mark), (rep.live_size member).1,
    Exec.run_bind_of_ok (run_physicalMemory bank state), (rep.live_size member).2,
    Exec.run_bind_of_ok (run_setPhysmem _ _ _)]
  exact run_onMemory_ok inserts

/-- `mm_free` refines `Partition.give`. -/
theorem mmFree_spec (rep : BankRep linker state bank partition)
    (member : block ∈ partition.live) :
    ∃ after, (mmFree (block.addr + 8)).run state = .ok () after ∧
      BankRep linker after bank (partition.give member) ∧
      CallEffect linker bank (block :: partition.free) state after := by
  have range := partition.live_inside member
  have large := live_size_ge partition member
  have last := bankLast_lt linker bank
  have ready := rep.free_ready member
  have total := Intervals.size_le_total member
  have conserved := partition.conserved
  have size := bankSize_lt linker bank
  simp only [Interval.stop] at range
  rcases mmListInsert_spec ready with ⟨inserted, returns, chain, rootSize, insertWrites⟩
  let record := { state.physicalMemories bank with
    allocated := u32Sub (state.physicalMemories bank).allocated block.size }
  have writes : WritesOnly (CallFootprint linker bank (block :: partition.free)) state.memory
      inserted := by
    apply insertWrites.mono
    intro address inside
    rcases inside with inRoot | inBlock | ⟨gap, gapMember, inGap⟩
    · exact .inl inRoot
    · exact .inr ((Intervals.covers_cons ..).mpr
        (.inl (live_header_holds partition member inBlock)))
    · exact .inr ((Intervals.covers_cons ..).mpr
        (.inr (free_header_covered partition gapMember inGap)))
  refine ⟨⟨inserted, Function.update state.physicalMemories bank record⟩, ?_, ?_, writes, ?_⟩
  · exact rep.run_mmFree member returns
  · have erasedOutside : ∀ other ∈ partition.live.erase block,
        nodeNext inserted other.addr = nodeNext state.memory other.addr ∧
          nodeSize inserted other.addr = nodeSize state.memory other.addr := by
      intro other otherMember
      have otherLive := List.mem_of_mem_erase otherMember
      have different : block ≠ other := by
        intro equal
        subst other
        exact partition.live_nodup.not_mem_erase otherMember
      have outside : ∀ address, Header other.addr address →
          ¬ CallFootprint linker bank (block :: partition.free) address := by
        intro address inside written
        have holds := live_header_holds partition otherLive inside
        have below := rootObj_below linker bank
        have otherRange := partition.live_inside otherLive
        rcases written with inRoot | covered
        · simp only [Header, Interval.Holds] at *
          omega
        · rcases (Intervals.covers_cons ..).mp covered with inBlock | inFree
          · exact (partition.live_disjoint member otherLive different).not_holds inBlock holds
          · exact partition.exclusive address inFree ⟨other, otherLive, holds⟩
      exact ⟨nodeNext_of_writes writes outside, nodeSize_of_writes writes outside⟩
    exact {
      startAddr := by simpa using rep.startAddr
      size := by simpa using rep.size
      allocated := by
        have sizes := ((List.perm_cons_erase member).map Interval.size).sum_eq
        simp only [List.map_cons, List.sum_cons] at sizes
        have rest : Intervals.total (partition.give member).live =
            Intervals.total partition.live - block.size := by
          simp only [Partition.give, Intervals.total]
          omega
        simp only [Function.update_self, record, rep.allocated, rest]
        exact u32Sub_of_le (by omega) total
      minAlloc := by simpa using rep.minAlloc
      rootNode := by simpa using rep.rootNode
      lastNode := by simpa using rep.lastNode
      chain := chain
      rootSize := rootSize
      lastNext := by
        have below := rootObj_below linker bank
        have order := bankStart_lt_bankLast linker bank
        refine (nodeNext_of_writes writes ?_).trans rep.lastNext
        intro address inside written
        rcases written with inRoot | ⟨gap, gapMember, holds⟩
        · simp only [Header] at *
          omega
        · rcases List.mem_cons.mp gapMember with rfl | gapFree
          · simp only [Header, Interval.Holds, Interval.stop] at *
            omega
          · have gapRange := partition.free_inside gapFree
            simp only [Header, Interval.Holds, Interval.stop] at *
            omega
      live := by
        intro other otherMember
        have same := erasedOutside other otherMember
        have live := rep.live other (List.mem_of_mem_erase otherMember)
        exact ⟨same.1.trans live.1, same.2.trans live.2⟩ }
  · exact fun other different => Function.update_of_ne different ..

end Free

end Vanilla.Mm
