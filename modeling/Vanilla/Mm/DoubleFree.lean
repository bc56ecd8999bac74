import Vanilla.Mm.History

/-! # Frees of pointers that are not live

`mm_free` trusts the mark in the header in front of the pointer. A freed block
that is merged backwards keeps its header, mark and all.
-/

namespace Vanilla.Mm

open ByteMemory

/-- `mm_free` panics, and every free list and counter is as before. -/
def FreeRefused (state : MmState) (pointer : Nat) : Prop :=
  ∃ reason after, (mmFree pointer).run state = .error (.panic reason) after ∧
    ∀ bank, SameBank after state bank

/-- A pointer that `mm_alloc` returned earlier in the run and that is not live. -/
structure Stale (linker : Linker) (config : Config) (pointer : Nat) : Prop where
  returned : ∃ between calls, Reachable linker between ∧ Run Step between calls config ∧
    ∃ allocation ∈ between.live, allocation.pointer = pointer
  notLive : ∀ allocation ∈ config.live, allocation.pointer ≠ pointer

/-- The size in the header is zero, and its bank does not hold the node. -/
def MisplacedEmpty (state : MmState) (node : Nat) : Prop :=
  mmGetSize (nodeSize state.memory node) = 0 ∧
    ∃ bank : PhysmemE, mmGetRegion (nodeSize state.memory node) = bank.index ∧
      (node < (state.physicalMemories bank).rootNode ∨
        (state.physicalMemories bank).lastNode < node)

/-! ## The guards of mm_free -/

section Guards

variable {linker : Linker} {config : Config} {state : MmState} {pointer node : Nat}
  {partitions : (bank : PhysmemE) → BankPartition linker bank}

theorem physicalMemory_cases (index : Nat) :
    (∃ bank : PhysmemE, index = bank.index) ∨
      ∃ reason, (∀ text, reason ≠ Fault.panic text) ∧
        (physicalMemory index : Exec MmState PhysmemE).run state = .error reason state := by
  match index with
  | 0 => exact .inl ⟨.sram, rfl⟩
  | 1 => exact .inl ⟨.dramBank1, rfl⟩
  | 2 => exact .inl ⟨.dramBank2, rfl⟩
  | 3 => exact .inl ⟨.dramBank3, rfl⟩
  | 4 => exact .inl ⟨.dramBank4, rfl⟩
  | 5 => exact .inr ⟨.nullDereference, by simp, rfl⟩
  | _ + 6 => exact .inr ⟨.outOfBounds, by simp, rfl⟩

theorem mmListInsert_outside (memory : ByteMemory) {node root last : Nat}
    (outside : node < root ∨ last < node) :
    (mmListInsert node root last).run memory = .error (.panic "Memory list error") memory := by
  simp only [mmListInsert]
  rw [Exec.run_bind_of_ok (EStateM.run_get memory), if_pos outside]
  rfl

/-- In its range `mm_list_insert` never panics. -/
theorem outside_of_mmListInsert_panics {memory after : ByteMemory} {node root last : Nat}
    {reason : String}
    (panics : (mmListInsert node root last).run memory = .error (.panic reason) after) :
    node < root ∨ last < node := by
  by_contra inside
  simp only [mmListInsert] at panics
  rw [Exec.run_bind_of_ok (EStateM.run_get memory), if_neg inside] at panics
  cases seeks : seekBefore memory node loopRounds root with
  | none =>
      rw [seeks] at panics
      cases panics
  | some iter =>
      rw [seeks] at panics
      change (if (mergeBackward memory iter node).2 ≠ iter then _ else _ :
        Exec ByteMemory Unit).run memory = _ at panics
      split at panics <;> cases panics

theorem onMemory_panics {body : Exec ByteMemory Unit} {after : MmState} {reason : String}
    (panics : (onMemory body).run state = .error (.panic reason) after) :
    ∃ memory, body.run state.memory = .error (.panic reason) memory ∧
      after = { state with memory } := by
  cases outcome : body.run state.memory with
  | ok value memory =>
      rw [run_onMemory_ok outcome] at panics
      cases panics
  | error fault memory =>
      have fails : (onMemory body).run state = .error fault { state with memory } :=
        Exec.run_zoom_error outcome
      rw [fails] at panics
      have same := EStateM.Result.error.inj panics
      exact ⟨memory, by rw [same.1], same.2.symm⟩

theorem bankIndex_injective {left right : PhysmemE} (same : left.index = right.index) :
    left = right := by
  cases left <;> cases right <;> first | rfl | cases same

/-- The free behind the mark, as far as the list. -/
theorem run_mmFree_marked {bank : PhysmemE} (notNull : pointer ≠ 0)
    (place : u32Sub pointer sizeofMmNode = node)
    (mark : nodeNext state.memory node = 0xC0DEBABE)
    (region : mmGetRegion (nodeSize state.memory node) = bank.index) :
    (mmFree pointer).run state =
      (onMemory (mmListInsert node (state.physicalMemories bank).rootNode
        (state.physicalMemories bank).lastNode)).run
        (⟨state.memory, Function.update state.physicalMemories bank
          { state.physicalMemories bank with
            allocated := u32Sub (state.physicalMemories bank).allocated
              (mmGetSize (nodeSize state.memory node)) }⟩ : MmState) := by
  simp only [mmFree]
  rw [if_neg notNull]
  rw [Exec.run_bind_of_ok (EStateM.run_get state), place, if_neg fun different => different mark,
    region, Exec.run_bind_of_ok (run_physicalMemory bank state),
    Exec.run_bind_of_ok (run_setPhysmem _ _ _)]

theorem freeRefused_unmarked (notNull : pointer ≠ 0)
    (place : u32Sub pointer sizeofMmNode = node)
    (unmarked : nodeNext state.memory node ≠ 0xC0DEBABE) : FreeRefused state pointer := by
  refine ⟨"Pointer not made by mm_alloc*", state, ?_, fun _ => ⟨rfl, rfl⟩⟩
  simp only [mmFree]
  rw [if_neg notNull]
  rw [Exec.run_bind_of_ok (EStateM.run_get state), place, if_pos unmarked]
  rfl

/-- With its mark, a header is refused only if it is empty and out of place. -/
theorem Represents.freeRefused_marked_iff (rep : Represents linker config partitions)
    (notNull : pointer ≠ 0) (place : u32Sub pointer sizeofMmNode = node)
    (mark : nodeNext config.state.memory node = 0xC0DEBABE) :
    FreeRefused config.state pointer ↔ MisplacedEmpty config.state node := by
  have sizeBound : mmGetSize (nodeSize config.state.memory node) < 2 ^ 28 := by
    rw [mmGetSize_eq]
    exact Nat.mod_lt _ (by decide)
  have allocatedBound : ∀ bank, (config.state.physicalMemories bank).allocated < 2 ^ 28 := by
    intro bank
    rw [(rep.banks bank).allocated]
    have conserved := (partitions bank).conserved
    have size := bankSize_lt linker bank
    omega
  cases @physicalMemory_cases config.state
      (mmGetRegion (nodeSize config.state.memory node)) with
  | inr faults =>
      obtain ⟨fault, notPanic, faults⟩ := faults
      have fails : (mmFree pointer).run config.state = .error fault config.state := by
        simp only [mmFree]
        rw [if_neg notNull]
        rw [Exec.run_bind_of_ok (EStateM.run_get _), place,
          if_neg fun different => different mark]
        exact Exec.run_bind_of_error faults
      constructor
      · intro refused
        obtain ⟨reason, after, panics, _⟩ := refused
        rw [fails] at panics
        exact absurd (EStateM.Result.error.inj panics).1 (notPanic reason)
      · intro empty
        obtain ⟨_, bank, region, _⟩ := empty
        rw [region, run_physicalMemory] at faults
        cases faults
  | inl known =>
      obtain ⟨bank, region⟩ := known
      have runs := run_mmFree_marked notNull place mark region
      constructor
      · intro refused
        obtain ⟨reason, after, panics, same⟩ := refused
        rw [runs] at panics
        obtain ⟨memory, inserts, unchanged⟩ := onMemory_panics panics
        have counted := (same bank).2
        rw [unchanged] at counted
        simp only [Function.update_self, u32Sub] at counted
        have bound := allocatedBound bank
        exact ⟨by omega, bank, region, outside_of_mmListInsert_panics inserts⟩
      · intro empty
        obtain ⟨zero, other, otherRegion, outside⟩ := empty
        have sameBank := bankIndex_injective (region.symm.trans otherRegion)
        subst sameBank
        have counter : u32Sub (config.state.physicalMemories bank).allocated 0 =
            (config.state.physicalMemories bank).allocated := by
          have bound := allocatedBound bank
          exact u32Sub_of_le (by omega) (Nat.zero_le _)
        rw [zero, counter, Function.update_eq_self] at runs
        refine ⟨"Memory list error", config.state, ?_, fun _ => ⟨rfl, rfl⟩⟩
        rw [runs]
        exact Exec.run_zoom_error (mmListInsert_outside _ outside)

/-- Every free of a pointer, by the header in front of it. -/
theorem Represents.freeRefused_iff (rep : Represents linker config partitions)
    (notNull : pointer ≠ 0) (place : u32Sub pointer sizeofMmNode = node) :
    FreeRefused config.state pointer ↔
      nodeNext config.state.memory node ≠ 0xC0DEBABE ∨ MisplacedEmpty config.state node := by
  by_cases mark : nodeNext config.state.memory node = 0xC0DEBABE
  · rw [rep.freeRefused_marked_iff notNull place mark]
    exact ⟨.inr, fun condition => condition.resolve_left fun unmarked => unmarked mark⟩
  · exact ⟨fun _ => .inl mark, fun _ => freeRefused_unmarked notNull place mark⟩

end Guards

/-! ## What a free does to its own header -/

/-- A block that no free block ends at gets a node of its own. -/
theorem addr_mem_release {block : Interval} {free : List Interval}
    (alone : ∀ gap ∈ free, gap.stop ≠ block.addr) :
    ∃ gap ∈ Intervals.release block free, gap.addr = block.addr := by
  have absorbed : ∀ list, ∃ gap ∈ Intervals.absorb block list, gap.addr = block.addr := by
    intro list
    cases list with
    | nil => exact ⟨block, List.mem_cons_self, rfl⟩
    | cons head rest =>
        simp only [Intervals.absorb]
        split
        · exact ⟨_, List.mem_cons_self, rfl⟩
        · exact ⟨block, List.mem_cons_self, rfl⟩
  induction free with
  | nil => exact ⟨block, List.mem_cons_self, rfl⟩
  | cons head rest induction =>
      simp only [Intervals.release]
      split
      · rw [if_neg (alone head List.mem_cons_self)]
        obtain ⟨gap, member, same⟩ := induction fun gap member =>
          alone gap (List.mem_cons_of_mem _ member)
        exact ⟨gap, List.mem_cons_of_mem _ member, same⟩
      · exact absorbed (head :: rest)

section Header

variable {linker : Linker} {config : Config} {allocation : Allocation} {after : MmState}
  {partitions : (bank : PhysmemE) → BankPartition linker bank}

/-- A free block ends where the freed one starts. -/
def MergesBackward (free : List Interval) (block : Interval) : Prop :=
  ∃ gap ∈ free, gap.stop = block.addr

/-- A block that is merged backwards keeps its header. -/
theorem Represents.header_kept (rep : Represents linker config partitions)
    (member : allocation ∈ config.live)
    (returns : (mmFree allocation.pointer).run config.state = .ok () after)
    (merges : MergesBackward (partitions allocation.bank).free allocation.block) :
    nodeNext after.memory allocation.block.addr = 0xC0DEBABE ∧
      nodeSize after.memory allocation.block.addr =
        nodeSize config.state.memory allocation.block.addr := by
  have live := rep.block_live member
  have bank := rep.banks allocation.bank
  have ready := bank.free_ready live
  obtain ⟨gap, gapFree, touches⟩ := merges
  obtain ⟨left, right, split⟩ := ready.split
  have inLeft : gap ∈ left := by
    rw [split.equal] at gapFree
    cases List.mem_append.mp gapFree with
    | inl earlier => exact earlier
    | inr later =>
        have order := (split.after gap later).1
        have positive := free_size_ge _ (by rw [split.equal]; exact gapFree :
          gap ∈ (partitions allocation.bank).free)
        simp only [Interval.stop] at *
        omega
  obtain ⟨front, cut⟩ := ready.split_touching split inLeft touches
  subst cut
  obtain ⟨inserted, inserts, _, _, writes⟩ := ready.insert_merged split touches
  have freed := bank.run_mmFree live inserts
  rw [← (rep.pointers allocation member).1, returns] at freed
  cases freed
  have apart : ∀ address, Header allocation.block.addr address →
      ¬ Header gap.addr address := by
    have large := free_size_ge _ gapFree
    intro address inBlock inGap
    simp only [Header, Interval.stop] at *
    omega
  exact ⟨(nodeNext_of_writes writes apart).trans (bank.live _ live).1,
    nodeSize_of_writes writes apart⟩

/-- A block that is not merged backwards gets a link in place of the mark. -/
theorem Represents.header_linked (rep : Represents linker config partitions)
    (member : allocation ∈ config.live)
    (returns : (mmFree allocation.pointer).run config.state = .ok () after)
    (alone : ¬ MergesBackward (partitions allocation.bank).free allocation.block) :
    nodeNext after.memory allocation.block.addr < 2 ^ 31 := by
  obtain ⟨after', returns', freed, _⟩ := rep.free member
  rw [returns] at returns'
  cases returns'
  have changed := freed.banks allocation.bank
  rw [Function.update_self] at changed
  have last := bankLast_lt_below linker allocation.bank
  obtain ⟨gap, inFree, same⟩ := @addr_mem_release allocation.block
    (partitions allocation.bank).free fun gap gapFree stops => alone ⟨gap, gapFree, stops⟩
  change gap ∈ ((partitions allocation.bank).give (rep.block_live member)).free at inFree
  have inside := fun other
    (inGive : other ∈ ((partitions allocation.bank).give (rep.block_live member)).free) =>
      ((partitions allocation.bank).give (rep.block_live member)).free_inside inGive
  have chain := changed.chain
  obtain ⟨front, back, cut⟩ := List.append_of_mem inFree
  rw [cut] at chain inside
  have link := ((chain_append_cons gap back _ front).mp chain).2.2.next_eq
  rw [← same, link]
  cases back with
  | nil =>
      rw [firstNode]
      omega
  | cons head rest =>
      have bounds := inside head (by simp)
      simp only [Interval.stop] at bounds
      rw [firstNode]
      omega

/-- A second free right after the first is refused unless the block was merged
backwards, whatever it was merged with forwards. -/
theorem Represents.second_free_refused_iff (rep : Represents linker config partitions)
    (member : allocation ∈ config.live)
    (returns : (mmFree allocation.pointer).run config.state = .ok () after) :
    FreeRefused after allocation.pointer ↔
      ¬ MergesBackward (partitions allocation.bank).free allocation.block := by
  obtain ⟨after', returns', freed, _⟩ := rep.free member
  rw [returns] at returns'
  cases returns'
  have pointer := (rep.pointers allocation member).1
  have live := rep.block_live member
  have inside := (partitions allocation.bank).live_inside live
  have last := bankLast_lt linker allocation.bank
  have place : u32Sub allocation.pointer sizeofMmNode = allocation.block.addr := by
    simp only [Interval.stop] at inside
    rw [sizeofMmNode, pointer, u32Sub_of_le (by omega) (by omega)]
    omega
  rw [freed.freeRefused_iff (by omega) place]
  by_cases merges : MergesBackward (partitions allocation.bank).free allocation.block
  · obtain ⟨mark, size⟩ := rep.header_kept member returns merges
    refine ⟨?_, fun alone => absurd merges alone⟩
    intro condition
    cases condition with
    | inl unmarked => exact absurd mark unmarked
    | inr empty =>
        have zero := empty.1
        simp only at zero
        rw [size, ((rep.banks allocation.bank).live_size live).2] at zero
        have large := live_size_ge _ live
        omega
  · have linked := rep.header_linked member returns merges
    refine ⟨fun _ => merges, fun _ => .inl ?_⟩
    intro mark
    simp only at mark
    omega

end Header

/-- A second free of a pointer is refused exactly when its header has lost the
mark, or is empty and out of place; right after the first free, exactly when no
free block ended where the freed one starts. -/
theorem stale_free_refused_iff {linker : Linker} {config : Config}
    (reachable : Reachable linker config) :
    (∀ pointer, Stale linker config pointer →
      (FreeRefused config.state pointer ↔
        nodeNext config.state.memory (pointer - sizeofMmNode) ≠ 0xC0DEBABE ∨
          MisplacedEmpty config.state (pointer - sizeofMmNode))) ∧
      ∀ allocation ∈ config.live, ∀ after free,
        freeList config.state allocation.bank = some free →
        (mmFree allocation.pointer).run config.state = .ok () after →
          (FreeRefused after allocation.pointer ↔ ¬ MergesBackward free allocation.block) := by
  obtain ⟨partitions, rep⟩ := reachable.represents
  constructor
  · intro pointer stale
    obtain ⟨between, calls, earlier, _, allocation, member, same⟩ := stale.returned
    obtain ⟨before, beforeRep⟩ := earlier.represents
    have place := (beforeRep.pointers allocation member).1
    have inside := (before allocation.bank).live_inside (beforeRep.block_live member)
    have last := bankLast_lt linker allocation.bank
    simp only [Interval.stop] at inside
    apply rep.freeRefused_iff (by omega)
    rw [sizeofMmNode]
    exact u32Sub_of_le (by omega) (by omega)
  · intro allocation member after free listed returns
    rw [(rep.banks allocation.bank).freeList_eq] at listed
    cases listed
    exact rep.second_free_refused_iff member returns

/-! ## Two blocks side by side -/

def secondAllocation : Allocation where
  bank := .sram
  request := 100
  pointer := 0x20401078
  block := ⟨0x20401070, 112⟩

theorem update_give_free {linker : Linker} {bank : PhysmemE} {block : Interval}
    (partitions : (bank : PhysmemE) → BankPartition linker bank)
    (member : block ∈ (partitions bank).live) :
    (Function.update partitions bank ((partitions bank).give member) bank).free =
      Intervals.release block (partitions bank).free := by
  rw [Function.update_self]
  rfl

/-- The first of two blocks is free again, and the second is about to be. -/
theorem freed_first : ∃ state partitions, Reachable lowHeap ⟨state, [secondAllocation]⟩ ∧
    Represents lowHeap ⟨state, [secondAllocation]⟩ partitions ∧
      (partitions .sram).free = [⟨0x20401000, 112⟩, ⟨0x204010E0, 261912⟩] := by
  have start := represents_init lowHeap ⟨fun _ => 0, []⟩
  have whole : bankAllocate .sram 100 (wholeBank lowHeap .sram).free =
      some (⟨0x20401000, 112⟩, [⟨0x20401070, 262024⟩]) := by decide
  obtain ⟨first, firstReturns, firstBlock, firstRep, _⟩ := start.alloc (by decide) whole
  have firstStep := Step.alloc (by decide) firstReturns (by decide)
  rw [firstBlock] at firstStep
  have more : bankAllocate .sram 100 [⟨0x20401070, 262024⟩] =
      some (⟨0x20401070, 112⟩, [⟨0x204010E0, 261912⟩]) := by decide
  obtain ⟨second, secondReturns, secondBlock, secondRep, _⟩ :=
    firstRep.alloc (show 100 ≤ 0xFFFFFFF0 by decide)
      (show bankAllocate .sram 100 _ = some (⟨0x20401070, 112⟩, [⟨0x204010E0, 261912⟩]) by
        rw [Function.update_self]
        exact more)
  have secondStep := Step.alloc (by decide) secondReturns (by decide)
  rw [secondBlock] at secondStep
  have known : firstAllocation ∈ [secondAllocation, firstAllocation] := by simp
  obtain ⟨state, freeReturns, freed, _⟩ := secondRep.free known
  have freeStep : Step ⟨second, [secondAllocation, firstAllocation]⟩ (.free firstAllocation)
      ⟨state, [secondAllocation]⟩ := Step.free known freeReturns
  refine ⟨state, _, ⟨_, _, .cons firstStep (.cons secondStep (.cons freeStep (.nil _)))⟩,
    freed, ?_⟩
  refine (update_give_free _ _).trans ?_
  change Intervals.release firstAllocation.block
    (Partition.free (Function.update (Function.update (wholeBank lowHeap) .sram _) .sram _
      PhysmemE.sram)) = _
  rw [Function.update_self]
  exact (by decide : Intervals.release ⟨0x20401000, 112⟩ [⟨0x204010E0, 261912⟩] =
    [⟨0x20401000, 112⟩, ⟨0x204010E0, 261912⟩])

/-- Both blocks have been freed, and the header of the second still has its mark. -/
theorem freed_both : ∃ state, Reachable lowHeap ⟨state, []⟩ ∧
    Stale lowHeap ⟨state, []⟩ secondAllocation.pointer ∧
      ¬ FreeRefused state secondAllocation.pointer := by
  obtain ⟨state, partitions, reachable, rep, free⟩ := freed_first
  have known : secondAllocation ∈ [secondAllocation] := List.mem_singleton.mpr rfl
  obtain ⟨after, returns, _, _⟩ := rep.free known
  have step : Step ⟨state, [secondAllocation]⟩ (.free secondAllocation) ⟨after, []⟩ :=
    Step.free known returns
  have run := Run.cons step (.nil _)
  refine ⟨after, reachable.run run, ⟨⟨_, _, reachable, run, _, known, rfl⟩, ?_⟩, ?_⟩
  · exact fun allocation member => absurd member List.not_mem_nil
  · rw [rep.second_free_refused_iff known returns, not_not]
    change MergesBackward (partitions .sram).free _
    rw [free]
    exact ⟨⟨0x20401000, 112⟩, List.mem_cons_self, rfl⟩

theorem stale_free_refused_iff_freed : ∃ state, Stale lowHeap ⟨state, []⟩ 0x20401078 ∧
    (FreeRefused state 0x20401078 ↔
      nodeNext state.memory (0x20401078 - sizeofMmNode) ≠ 0xC0DEBABE ∨
        MisplacedEmpty state (0x20401078 - sizeofMmNode)) :=
  Exists.elim freed_both fun state facts =>
    ⟨state, facts.2.1, (stale_free_refused_iff facts.1).1 _ facts.2.1⟩

/-- The second free of a block that was merged backwards is not refused. -/
theorem second_free_accepted : ∃ config pointer, Reachable lowHeap config ∧
    Stale lowHeap config pointer ∧ ¬ FreeRefused config.state pointer :=
  Exists.elim freed_both fun state facts => ⟨⟨state, []⟩, _, facts⟩

end Vanilla.Mm
