import Vanilla.Mm.Ownership

/-! # The free list forgets the past

What a bank looks like depends on its live blocks only, not on the calls that
led to them.
-/

namespace Vanilla.Mm

open ByteMemory

/-- Two machines whose bank has the same free list and the same counter. -/
def SameBank (left right : MmState) (bank : PhysmemE) : Prop :=
  freeList left bank = freeList right bank ∧
    (left.physicalMemories bank).allocated = (right.physicalMemories bank).allocated

/-- Free the pointers of `order`, one after the other. -/
def freeEach : List Allocation → Exec MmState Unit
  | [] => pure ()
  | allocation :: rest => do
      mmFree allocation.pointer
      freeEach rest

section History

variable {linker : Linker} {config other : Config}
  {partitions otherPartitions : (bank : PhysmemE) → BankPartition linker bank}

theorem Represents.same_bank (rep : Represents linker config partitions)
    (otherRep : Represents linker other otherPartitions) {bank : PhysmemE}
    (same : ∀ block, block ∈ config.blocks bank ↔ block ∈ other.blocks bank) :
    SameBank config.state other.state bank := by
  have live := rep.live bank
  have otherLive := otherRep.live bank
  have sameLive : ∀ block, block ∈ (partitions bank).live ↔
      block ∈ (otherPartitions bank).live := by
    intro block
    rw [live.mem_iff, otherLive.mem_iff]
    exact same block
  constructor
  · rw [(rep.banks bank).freeList_eq, (otherRep.banks bank).freeList_eq,
      Partition.free_eq_of_live_eq sameLive]
  · rw [(rep.banks bank).allocated, (otherRep.banks bank).allocated]
    exact total_perm ((List.perm_ext_iff_of_nodup (partitions bank).live_nodup
      (otherPartitions bank).live_nodup).mpr sameLive)

theorem Reachable.same_bank (reachable : Reachable linker config)
    (otherReachable : Reachable linker other) {bank : PhysmemE}
    (same : ∀ block, block ∈ config.blocks bank ↔ block ∈ other.blocks bank) :
    SameBank config.state other.state bank := by
  rcases reachable.represents with ⟨partitions, rep⟩
  rcases otherReachable.represents with ⟨otherPartitions, otherRep⟩
  exact rep.same_bank otherRep same

/-- Freeing a live pointer is a step of a run. -/
theorem Reachable.free (reachable : Reachable linker config) {allocation : Allocation}
    (member : allocation ∈ config.live) :
    ∃ after, (mmFree allocation.pointer).run config.state = .ok () after ∧
      Reachable linker ⟨after, config.live.erase allocation⟩ := by
  rcases reachable.represents with ⟨partitions, rep⟩
  rcases rep.free member with ⟨after, returns, _⟩
  exact ⟨after, returns, reachable.run (.cons (.free member returns) (.nil _))⟩

theorem Reachable.free_two (reachable : Reachable linker config)
    {first second : Allocation} (firstMember : first ∈ config.live)
    (secondMember : second ∈ config.live) (different : second ≠ first) :
    ∃ after, (mmFree first.pointer >>= fun _ => mmFree second.pointer).run config.state =
        .ok () after ∧
      Reachable linker ⟨after, (config.live.erase first).erase second⟩ := by
  rcases reachable.free firstMember with ⟨between, firstReturns, firstReachable⟩
  rcases firstReachable.free ((List.mem_erase_of_ne different).mpr secondMember) with
    ⟨after, secondReturns, secondReachable⟩
  refine ⟨after, ?_, secondReachable⟩
  rw [Exec.run_bind_of_ok firstReturns]
  exact secondReturns

theorem Reachable.free_each (reachable : Reachable linker config) {order : List Allocation}
    (all : order.Perm config.live) :
    ∃ after, (freeEach order).run config.state = .ok () after ∧
      Reachable linker ⟨after, []⟩ := by
  induction order generalizing config with
  | nil =>
      have empty : config.live = [] := all.symm.eq_nil
      refine ⟨config.state, rfl, ?_⟩
      rw [← empty]
      exact reachable
  | cons head rest induction =>
      have member : head ∈ config.live := all.mem_iff.mp List.mem_cons_self
      rcases reachable.free member with ⟨between, returns, next⟩
      have others : rest.Perm (config.live.erase head) :=
        (all.trans (List.perm_cons_erase member)).cons_inv
      rcases induction next others with ⟨after, restReturns, done⟩
      refine ⟨after, ?_, done⟩
      simp only [freeEach]
      rw [Exec.run_bind_of_ok returns]
      exact restReturns

/-- A returned pointer can be freed, which restores every bank. -/
theorem Reachable.free_undoes (reachable : Reachable linker config) {request pointer : Nat}
    {bank : PhysmemE} {after : MmState} (requestBound : request ≤ 0xFFFFFFF0)
    (returns : (mmAlloc request bank).run config.state = .ok pointer after)
    (notNull : pointer ≠ 0) :
    ∃ final, (mmFree pointer).run after = .ok () final ∧
      ∀ other, SameBank final config.state other := by
  have allocated := reachable.run
    (.cons (Step.alloc requestBound returns notNull) (.nil _))
  rcases allocated.free List.mem_cons_self with ⟨final, freed, done⟩
  rw [List.erase_cons_head] at done
  exact ⟨final, freed, fun other => done.same_bank reachable fun _ => Iff.rfl⟩

end History

theorem reachable_start (linker : Linker) (memory : ByteMemory) :
    Reachable linker ⟨mmInit linker memory, []⟩ := ⟨memory, [], .nil _⟩

/-- The state of a bank is a function of its live blocks. So two frees commute,
a free undoes the allocation that made its pointer, and freeing everything, in
any order, restores the single block `mm_init` made. -/
theorem free_list_of_live_blocks (linker : Linker) :
    (∀ left right bank, Reachable linker left → Reachable linker right →
      (∀ block, block ∈ left.blocks bank ↔ block ∈ right.blocks bank) →
      SameBank left.state right.state bank) ∧
    (∀ config first second, Reachable linker config → first ∈ config.live →
      second ∈ config.live → first ≠ second →
      ∃ left right,
        (mmFree first.pointer >>= fun _ => mmFree second.pointer).run config.state =
          .ok () left ∧
        (mmFree second.pointer >>= fun _ => mmFree first.pointer).run config.state =
          .ok () right ∧
        ∀ bank, SameBank left right bank) ∧
    (∀ config request bank pointer after, Reachable linker config →
      request ≤ 0xFFFFFFF0 → (mmAlloc request bank).run config.state = .ok pointer after →
      pointer ≠ 0 →
      ∃ final, (mmFree pointer).run after = .ok () final ∧
        ∀ other, SameBank final config.state other) ∧
    ∀ config order, Reachable linker config → order.Perm config.live →
      ∃ final, (freeEach order).run config.state = .ok () final ∧
        ∀ bank, freeList final bank = some [⟨bankStart linker bank,
            (final.physicalMemories bank).size⟩] ∧
          ∀ memory, SameBank final (mmInit linker memory) bank := by
  refine ⟨?_, ?_, ?_, ?_⟩
  · exact fun left right bank leftReachable rightReachable same =>
      leftReachable.same_bank rightReachable same
  · intro config first second reachable firstMember secondMember different
    rcases reachable.free_two firstMember secondMember (Ne.symm different) with
      ⟨left, leftReturns, leftReachable⟩
    rcases reachable.free_two secondMember firstMember different with
      ⟨right, rightReturns, rightReachable⟩
    refine ⟨left, right, leftReturns, rightReturns, ?_⟩
    intro bank
    apply leftReachable.same_bank rightReachable
    simp only [Config.blocks, List.erase_comm first second, implies_true]
  · exact fun config request bank pointer after reachable requestBound returns notNull =>
      reachable.free_undoes requestBound returns notNull
  · intro config order reachable all
    rcases reachable.free_each all with ⟨final, returns, done⟩
    refine ⟨final, returns, ?_⟩
    intro bank
    have restored : ∀ memory, SameBank final (mmInit linker memory) bank := fun memory =>
      done.same_bank (reachable_start linker memory) fun _ => Iff.rfl
    rcases done.represents with ⟨partitions, rep⟩
    refine ⟨?_, restored⟩
    rw [(restored ⟨fun _ => 0, []⟩).1, (mmInit_rep linker _ bank).freeList_eq,
      (rep.banks bank).size]
    rfl

end Vanilla.Mm
